import Aftermath.Proofs.Order
import Aftermath.Proofs.Turn.Advance
import Aftermath.Proofs.Withdrawal

/-! Sessions without subscriptions. Such a session has nothing to wait for: once its post is acknowledged
and all hooks have heard of it, it ends by steps of the hub alone, and only like this does a session end
well without an event. A cancellation as a whole decides it too, but not while it runs its post or what
follows. -/

namespace Aftermath

theorem Hooks.told_acknowledged (hs : Hooks) : told hs.acknowledged = [] :=
  Hooks.Opening.told .acknowledged

theorem posts_not_mem_played (ks : List HookId) (arg : Argument) : Beat.posts ∉ played ks arg := by
  simp [played]

namespace Hub

/-- The post of the session was acknowledged, and all hooks have heard of it. -/
def Acknowledged (h : Hub) (sid : SessionId) : Prop :=
  h.beats sid = (h.session sid).hooks.acknowledged

/-- What an acknowledged session without subscriptions has still to do: it closes, it releases nothing,
and it leaves. -/
inductive Finishing (h : Hub) (sid : SessionId) : Nat → Prop where
  | done {rest : List Frame} : (h.session sid).phase = .acknowledging [] →
      (h.session sid).running = none → h.stack = .driving sid :: rest → Finishing h sid 3
  | releases {rest : List Frame} {n : Nat} :
      (h.session sid).phase = .closing (.resolved (.positive none)) →
      (h.session sid).running = none → h.stack = .releasing sid [] n :: .driving sid :: rest →
      Finishing h sid 2
  | leaves {rest : List Frame} : (h.session sid).phase = .closing (.resolved (.positive none)) →
      (h.session sid).running = none → h.stack = .driving sid :: rest → Finishing h sid 1
  | ended : (h.session sid).phase = .ended (.resolved (.positive none)) → Finishing h sid 0

section
variable {h h' : Hub} {sid : SessionId} {m : Move} {k : HookId} {ks : List HookId} {arg : Argument}
variable {n : Nat}

/-- While a session finishes the hub has nothing else to do. -/
theorem Finishing.step (hf : Finishing h sid (n + 1)) (hi : sid < h.sessions.length)
    (hm : (h.session sid).members = []) :
    h.isBusy ∧ Finishing h.step sid n ∧ (h.step.session sid).members = [] := by
  have top : ∀ {f l}, h.stack = f :: l → f.isInternal → h.isBusy := fun hst hf => by
    rw [isBusy, hst]; exact hf
  cases hf with
  | @done rest hp hr hst =>
    have hstep : h.step = h.conclude sid (.resolved (.positive none)) := by
      unfold Hub.step
      rw [hst]
      simp [drive, hr, hp, hm]
    have hv := view_conclude hi sid (.resolved (.positive none))
    rw [if_pos rfl] at hv
    have hst' : (h.conclude sid (.resolved (.positive none))).stack =
        .releasing sid [] 0 :: .driving sid :: rest := by
      rw [stack_conclude hi, hm, hst]
    rw [hstep]
    exact ⟨top hst rfl, .releases (congrArg (fun v : View => v.self.phase) hv)
      ((congrArg (fun v : View => v.self.running) hv).trans hr) hst',
      (congrArg (fun v : View => v.self.members) hv).trans hm⟩
  | @releases rest n hp hr hst =>
    have hstep : h.step = h.pop.releaseStep sid [] n := by unfold Hub.step; rw [hst]
    have hses : h.step.sessions = h.sessions := by
      rw [hstep]; unfold releaseStep; dsimp only; split <;> rfl
    have hst' : h.step.stack = .driving sid :: rest := by
      rw [hstep]; unfold releaseStep; dsimp only
      rw [stack_reply]
      split <;> (show h.stack.tail = _; rw [hst]; rfl)
    exact ⟨top hst rfl, .leaves (by rw [session_eq hses]; exact hp)
      (by rw [session_eq hses]; exact hr) hst', by rw [session_eq hses]; exact hm⟩
  | @leaves rest hp hr hst =>
    have hstep : h.step = h.leave sid (.resolved (.positive none)) := by
      unfold Hub.step
      rw [hst]
      simp [drive, hr, hp]
    obtain ⟨-, hx, -⟩ := Ends.of_leave hst hi (e := .resolved (.positive none))
    rw [hstep]
    exact ⟨top hst rfl, .ended (by rw [hx]), by rw [hx]; exact hm⟩

/-- A session that finishes has ended well after so many steps of the hub. -/
theorem Finishing.run (hf : Finishing h sid n) (hi : sid < h.sessions.length)
    (hm : (h.session sid).members = []) : ∃ b, h.run? (List.replicate n .step) = some b ∧
      (b.session sid).phase = .ended (.resolved (.positive none)) := by
  induction n generalizing h with
  | zero => cases hf with | ended hp => exact ⟨h, rfl, hp⟩
  | succ n ih =>
    obtain ⟨hb, hf, hm'⟩ := hf.step hi hm
    have hmove : h.move? .step = some h.step := if_pos hb
    have hi' := Nat.lt_of_lt_of_le hi (sessions_length_le (moved_of_move? hmove))
    obtain ⟨b, hrun, hp⟩ := ih hf hi' hm'
    exact ⟨b, by rw [List.replicate_succ, run?, hmove]; exact hrun, hp⟩

theorem Finishing.move (ha : Reachable h) (hv : h.move? m = some h') (hf : Finishing h sid n)
    (hi : sid < h.sessions.length) (hm : (h.session sid).members = []) :
    ∃ n, Finishing h' sid n := by
  cases n with
  | zero =>
    cases hf with
    | ended hp =>
      have hover : (h.session sid).phase.isOver := by rw [hp]; rfl
      exact ⟨0, .ended ((ha.silent (Later.refl.move hv) hover).1.trans hp)⟩
  | succ n =>
    obtain ⟨hb, hf, -⟩ := hf.step hi hm
    unfold move? at hv
    rw [if_pos hb] at hv
    split at hv <;> cases hv
    exact ⟨n, hf⟩

/-! ### After the last hook -/

theorem posts_mem_acknowledged (hs : Hooks) : .posts ∈ hs.acknowledged := by
  simp [Hooks.acknowledged]

/-- The last that is heard of an acknowledged session is the acknowledgement or the end of a hook. -/
theorem acknowledged_last (hs : Hooks) : ∃ l c, hs.acknowledged = l ++ [c] ∧
    (c = .acknowledged ∨ ∃ k, c = .ends k) := by
  rcases List.eq_nil_or_concat hs.acknowledge with he | ⟨ks, k, he⟩
  · exact ⟨hs.prepared ++ [.posts], .acknowledged, by simp [Hooks.acknowledged, he, played],
      .inl rfl⟩
  · exact ⟨hs.prepared ++ [.posts, .acknowledged] ++ played ks .nothing ++ [.begins k .nothing],
      .ends k, by simp [Hooks.acknowledged, he, played], .inr ⟨k, rfl⟩⟩

/-- All hooks have heard of the acknowledgement when everything has been heard. -/
theorem rest_of_playing {hs : Hooks} {ks : List HookId}
    (hp : Playing (hs.prepared ++ [.posts, .acknowledged]) hs.acknowledge .nothing ks none
      hs.acknowledged) : ks = [] := by
  generalize hb : hs.acknowledged = b at hp
  cases hp with
  | @rests done _ he =>
    rw [Hooks.acknowledged, he, played_append] at hb
    have hn := List.append_cancel_left hb
    cases ks with
    | nil => rfl
    | cons k ks => simp [played] at hn

/-- Between two hooks of an acknowledged session, all that are left are handlers. -/
theorem Heard.acknowledged {z : Session} {p : Phase} (hb : Heard h sid z z.hooks.acknowledged p)
    (hr : z.running = none) (hp : p.isHooking) :
    p = .acknowledging [] ∨ ∃ ks arg e, p = .handling ks arg e := by
  cases p with
  | preparing ks =>
    have hin := posts_mem_acknowledged z.hooks
    rcases hb with hb | ⟨-, -, -, hb⟩
    · exact absurd (hb.prefix_full.subset hin) (posts_not_mem_played _ _)
    · rw [hb] at hin; cases hin
  | acknowledging ks =>
    rw [Heard, hr] at hb
    rw [rest_of_playing hb]
    exact .inl rfl
  | handling ks arg e => exact .inr ⟨_, _, _, rfl⟩
  | _ => cases hp

/-- The last hook has just ended, or there was none. -/
theorem last_answer (ha : Reachable h) (hv : h.move? m = some h') (hn : ¬ Acknowledged h sid)
    (hk : Acknowledged h' sid) : (∃ f, h.thread sid = [f, .driving sid]) ∧
      h'.stance sid ≠ h.stance sid ∧ h'.stance sid = (.acknowledging [], none) := by
  have hm := moved_of_move? hv
  have hheard := (ha.later (Later.refl.move hv)).heard sid
  have hk : h'.beats sid = (h'.session sid).hooks.acknowledged := hk
  rw [hk] at hheard
  obtain ⟨l, c, hl, hc⟩ := acknowledged_last (h'.session sid).hooks
  rcases (move_turn ha.wired hm sid).answered_cases (ha.fits sid) (hk.trans hl) hc with
    he | ⟨hr, hd, ⟨hsome, hhook, hp⟩ | ⟨hq, hp⟩⟩
  · have he : h'.beats sid = h.beats sid := he
    refine absurd ?_ hn
    rw [Acknowledged, ← he, hk, hooks_move ha hm fun hp => ?_]
    have hb := ha.heard sid
    rw [hp, Heard, ← he, hk] at hb
    exact List.ne_nil_of_mem (posts_mem_acknowledged _) hb
  · have hr : (h'.session sid).running = none := hr
    have hp : (h'.session sid).phase = (h.session sid).phase := hp
    have hsome : (h.session sid).running.isSome := hsome
    refine ⟨hd, fun hst => ?_, Prod.ext ?_ hr⟩
    · rw [show (h.session sid).running = _ from (congrArg Prod.snd hst).symm.trans hr] at hsome
      cases hsome
    · refine (hheard.acknowledged hr (by rw [hp]; exact hhook)).resolve_right ?_
      rintro ⟨ks, arg, e, hq⟩
      -- a handler has been told of the outcome, but not the hooks of the acknowledgement
      have hb := ha.heard sid
      rw [← hp, hq] at hb
      obtain ⟨q, hq⟩ := List.exists_mem_of_ne_nil _ (hb.told_running hsome)
      have hin : q ∈ told (h'.beats sid) :=
        ((beats_move ha hm sid).filterMap Beat.told?).subset hq
      rw [hk, Hooks.told_acknowledged] at hin
      cases hin
  · have hp : (h'.session sid).phase = .acknowledging (h'.session sid).hooks.acknowledge := hp
    refine ⟨hd, fun hst => ?_, Prod.ext ?_ hr⟩
    · have hst : (h'.session sid).phase = (h.session sid).phase := congrArg Prod.fst hst
      cases hp.symm.trans (hst.trans hq)
    · refine (hheard.acknowledged hr (by rw [hp]; rfl)).resolve_right ?_
      rintro ⟨ks, arg, e, hq⟩
      cases hp.symm.trans hq

/-- A session that goes on after a hook has its frame on top. -/
theorem stack_of_hookReplied {r : HookReply} (hi : sid < h.sessions.length)
    (hr : (h.session sid).running ≠ none)
    (hst : (h.hookReplied sid k r).stance sid = (.acknowledging ks, none)) :
    (h.hookReplied sid k r).stack = h.stack := by
  have hi' : ∀ {f}, sid < (h.onSession sid f).sessions.length := by simpa using hi
  have closing : ∀ {e}, ((h.hookReplied sid k r).session sid).phase = .closing e → False :=
    fun hp => nomatch hp.symm.trans (congrArg Prod.fst hst)
  cases r with
  | done => rfl
  | failed e =>
    have hv := view_conclude (hi' (f := fun x => { x with running := none })) sid (.failed (.hook e))
    rw [if_pos rfl] at hv
    exact (closing (congrArg (fun v : View => v.self.phase) hv)).elim
  | panicked text =>
    have hv := view_close (hi' (f := fun x => { x with running := none })) sid (.panicked text)
    rw [if_pos rfl] at hv
    exact (closing (congrArg (fun v : View => v.self.phase) hv)).elim
  | suspended => exact absurd (congrArg Prod.snd hst) hr

/-- So has a session that goes on after its post. -/
theorem stack_of_postReplied {r : PostReply} (hx : h.stance sid = (.posting, none))
    (hst : (h.postReplied sid r).stance sid = (.acknowledging ks, none)) :
    (h.postReplied sid r).stack = h.stack := by
  cases r with
  | acknowledged => rfl
  | failed e =>
    have hq := fun q => stance_setPhase (h := h.note (.postFailed sid e)) hx rfl q
    unfold postReplied at hst; dsimp only at hst
    split at hst
    · rw [stance_release, hq] at hst
      cases hst
    · split at hst
      · rw [stance_release, hq] at hst
        cases hst
      · have hq := stance_setPhase (h := (h.note (.postFailed sid e)).note (.belated sid e)) hx rfl
          .awaiting
        rw [hq] at hst
        cases hst
  | suspended => exact nomatch hx.symm.trans hst

/-- Its frame is on top then. -/
theorem finishing_of_acknowledged (ha : Reachable h) (hv : h.move? m = some h')
    (hn : ¬ Acknowledged h sid) (hk : Acknowledged h' sid) : Finishing h' sid 3 := by
  have hm := moved_of_move? hv
  obtain ⟨⟨f, hth⟩, hne, hstance⟩ := last_answer ha hv hn hk
  have hd : .driving sid ∈ h.thread sid := by simp [hth]
  have hi : sid < h.sessions.length := ha.wired.laid.session_lt (List.mem_filter.1 hd).1 rfl
  have hf := ha.fits sid
  have done : ∀ {rest}, h'.stack = .driving sid :: rest → Finishing h' sid 3 :=
    .done (congrArg Prod.fst hstance) (congrArg Prod.snd hstance)
  cases (stance_or_advances ha hm hd).resolve_left hne with
  | drive hst =>
    rw [thread_of_stack hst rfl] at hf hth
    rw [hf.of_driving.1] at hth
    cases hth
  | hook hst =>
    obtain ⟨l, hl⟩ := ha.driving_below hst (.inr ⟨_, _, rfl⟩)
    rw [thread_of_stack hst rfl] at hf
    have hr : (h.session sid).running ≠ none := by rw [hf.of_hook.2.2]; nofun
    exact done ((stack_of_hookReplied (h := h.pop) hi hr hstance).trans hl)
  | post hst =>
    obtain ⟨l, hl⟩ := ha.driving_below hst (.inl rfl)
    rw [thread_of_stack hst rfl] at hf
    obtain ⟨-, hp, hr⟩ := hf.of_posting
    exact done ((stack_of_postReplied (h := h.pop) (Prod.ext hp hr) hstance).trans hl)

theorem Finishing.lt (hf : Finishing h sid n) : sid < h.sessions.length := by
  refine Decidable.byContradiction fun hi => ?_
  have hd : h.session sid = default := by simp [session, Nat.le_of_not_lt hi]
  cases hf with
  | done hp | releases hp | leaves hp | ended hp => rw [hd] at hp; cases hp

/-- A session without subscriptions that is acknowledged finishes. -/
theorem Reachable.finishing (hr : Reachable h) (hm : (h.session sid).members = [])
    (hk : Acknowledged h sid) : ∃ n, Finishing h sid n := by
  induction hr using Reachable.induct with
  | init settings =>
    have hin := posts_mem_acknowledged (session { settings } sid).hooks
    rw [← show beats { settings } sid = _ from hk] at hin
    cases hin
  | move a b m ha hv ih =>
    have hma := members_before ha (moved_of_move? hv) hm
    by_cases hka : Acknowledged a sid
    · obtain ⟨n, hf⟩ := ih hma hka
      exact hf.move ha hv hf.lt hma
    · exact ⟨3, finishing_of_acknowledged ha hv hka hk⟩

/-! ### Sessions that end well without an event -/

theorem Handles.ending_ne {z : Session} {e : Ending} (hh : Handles h sid z ks arg e) :
    e ≠ .resolved (.positive none) := by
  cases hh with
  | fired => split <;> nofun
  | timedOut | failure => nofun

/-- A session ends well without an event only when it is acknowledged. -/
theorem Reachable.acknowledged_of_ending (hr : Reachable h)
    (hp : (h.session sid).phase = .closing (.resolved (.positive none)) ∨
      (h.session sid).phase = .ended (.resolved (.positive none))) : Acknowledged h sid := by
  induction hr using Reachable.induct with
  | init settings => rcases hp with hp | hp <;> cases hp
  | move a b m ha hv ih =>
    have hm := moved_of_move? hv
    have ht := move_turn ha.wired hm sid
    have same : (a.session sid).phase.isBegun → b.beats sid = a.beats sid →
        Acknowledged a sid → Acknowledged b sid := fun hq hb hk => by
      rw [Acknowledged, hb, hooks_move ha hm (Phase.not_configuring_of_begun hq)]
      exact hk
    rcases ht.ending_cases hp with hold | ⟨-, ⟨hc, hr, -, hb⟩ | hb⟩
    · rcases hold with hq | hq
      · have hq : (a.session sid).phase = .closing (.resolved (.positive none)) := hq
        exact same (by rw [hq]; rfl) (ht.ending_on (ha.fits sid) (.inr ⟨_, hq⟩)).1 (ih (.inl hq))
      · have hq : (a.session sid).phase = .ended (.resolved (.positive none)) := hq
        exact same (by rw [hq]; rfl) (ha.silent (Later.refl.move hv) (by rw [hq]; rfl)).2 (ih (.inr hq))
    · cases hc with
      | unawaited hq _ =>
        have hheard := ha.heard sid
        have hq : (a.session sid).phase = .acknowledging [] := hq
        rw [hq, Heard, show (a.session sid).running = none from hr] at hheard
        exact same (by rw [hq]; rfl) hb hheard.full
      | handled hq =>
        obtain ⟨_, _, _, hh⟩ := ha.found_of_handling hq
        exact absurd rfl hh.ending_ne
    · cases hb

/-! ### After a cancellation -/

/-- The endings of a session that was cancelled as a whole before anything else decided it; `posting`
tells whether it was running its post then, `acknowledging` whether the hooks after it. -/
def EndsRecalled (h : Hub) (sid : SessionId) (posting acknowledging : Prop) (e : Ending) : Prop :=
  e = .resolved (.negative .cancelled) ∨ e.isBroken ∨ posting ∧ Unheard h sid e ∨
    (posting ∨ acknowledging) ∧ e = .resolved (.positive none)

/-- A session that was cancelled as a whole before anything else decided it, with or without
subscriptions. -/
structure Recalled (h : Hub) (sid : SessionId) (posting acknowledging : Prop) : Prop where
  claim : (h.session sid).claim = some .cancelled
  cancelled : (h.session sid).cancelled
  post : (h.session sid).phase = .posting → .driving sid ∈ h.thread sid → posting
  hooks : ∀ ks, (h.session sid).phase = .acknowledging ks → .driving sid ∈ h.thread sid →
    posting ∨ acknowledging
  unheard : ∀ p, (h.session sid).phase = .unheard p → posting
  ending : ∀ e, (h.session sid).phase = .closing e ∨ (h.session sid).phase = .ended e →
    EndsRecalled h sid posting acknowledging e

variable {posting acknowledging : Prop} {e : Ending}

theorem EndsRecalled.move (ha : Reachable h) (hm : Moved h m h')
    (hp : (h.session sid).phase ≠ .configuring) (he : EndsRecalled h sid posting acknowledging e) :
    EndsRecalled h' sid posting acknowledging e :=
  he.imp id (Or.imp id (Or.imp (And.imp id (Unheard.move ha hm hp)) id))

theorem Recalled.closes (hr : Reachable h) (hw : Recalled h sid posting acknowledging)
    (hc : Closes h sid (h.session sid) e) (hd : .driving sid ∈ h.thread sid) :
    EndsRecalled h sid posting acknowledging e := by
  rcases closes_of_cancelled hr hw.claim hc with he | ⟨⟨p, hp⟩, hu⟩ | ⟨hp, -, he⟩
  · exact .inl he
  · exact .inr (.inr (.inl ⟨hw.unheard p hp, hu⟩))
  · exact .inr (.inr (.inr ⟨hw.hooks _ hp hd, he⟩))

theorem Recalled.move (ha : Reachable h) (hm : Moved h m h')
    (hw : Recalled h sid posting acknowledging) : Recalled h' sid posting acknowledging := by
  have ht := move_turn ha.wired hm sid
  refine ⟨claim_move ha hm hw.claim, cancelled_move ha hm (ha.opened_of_claim hw.claim) hw.cancelled,
    fun hp hth => ?_, fun ks hp hth => ?_, fun p hp => ?_, fun e hp => ?_⟩
  · obtain ⟨hp, hth⟩ := posting_before ha hm hw.claim hw.cancelled hp hth
    exact hw.post hp hth
  · rcases ht.acknowledging_cases (ha.fits sid) hp hth with ⟨hp | ⟨l, hp⟩, hth⟩ | hn
    · exact .inl (hw.post hp hth)
    · exact hw.hooks l hp hth
    · exact absurd (hn.symm.trans hw.cancelled) Bool.false_ne_true
  · rcases ht.unheard_cases (ha.fits sid) hp with hp | ⟨hp, hth⟩
    · exact hw.unheard p hp
    · exact hw.post hp hth
  · rcases ht.ending_cases hp with hold | ⟨-, ⟨hc, -, hd, -⟩ | hb⟩
    · refine (hw.ending e hold).move ha hm fun hq => ?_
      rcases hold with hp | hp <;> exact nomatch hq.symm.trans hp
    · exact (hw.closes ha hc hd).move ha hm hc.not_configuring
    · exact .inr (.inl hb)

theorem Recalled.later (hr : Reachable h) (hl : Later h h')
    (hw : Recalled h sid posting acknowledging) : Recalled h' sid posting acknowledging := by
  induction hl with
  | refl => exact hw
  | move hl hm ih => exact ih.move (hr.later hl) (moved_of_move? hm)

def Posting (h : Hub) (sid : SessionId) : Prop :=
  (h.session sid).phase = .posting ∧ h.isRunning sid

def Acknowledging (h : Hub) (sid : SessionId) : Prop :=
  (∃ ks, (h.session sid).phase = .acknowledging ks) ∧ h.isRunning sid

theorem Recalled.of_cancelAll (hr : Reachable h) (hi : sid < h.sessions.length)
    (hn : (h.session sid).claim = none) :
    Recalled (h.cancelAll sid) sid (Posting h sid) (Acknowledging h sid) := by
  have hx := session_recalled hi hn
  have hth : (h.cancelAll sid).thread sid = h.thread sid := thread_cancelAll hi
  refine ⟨by rw [hx], by rw [hx], fun hp hd => ?_, fun ks hp hd => ?_, fun p hp => ?_, fun e hp => ?_⟩
  · rw [hx] at hp
    exact ⟨hp, isRunning_of_driving (hth ▸ hd)⟩
  · rw [hx] at hp
    exact .inr ⟨⟨ks, hp⟩, isRunning_of_driving (hth ▸ hd)⟩
  · rw [hx] at hp
    exact absurd hp (hr.not_unheard hn)
  · rw [hx] at hp
    exact absurd hp (hr.not_ending hn)

/-- How a session fares, with or without subscriptions, that was cancelled as a whole in a hub `h`
before anything else decided it. -/
structure Outlasts (h h' : Hub) (sid : SessionId) : Prop where
  hooks : ∀ k arg, .begins k arg ∈ h'.beats sid → arg = .nothing
  post : .posts ∈ h'.beats sid → .posts ∈ h.beats sid
  ending : ∀ e, (h'.session sid).phase = .ended e →
    EndsRecalled h' sid (Posting h sid) (Acknowledging h sid) e
  rests : h'.Halts
  /-- It ends cancelled as soon as it runs again. -/
  resolves : ∀ a, h'.move? (.run sid) = some a → ∃ b, Returns h'.stack a b ∧
    (b.session sid).phase = .ended (.resolved (.negative .cancelled)) ∧ b.beats sid = h'.beats sid

theorem Outlasts.of_cancelAll (hr : Reachable h) {h₁ : Hub} (hm : h.move? (.cancelAll sid) = some h₁)
    (hn : (h.session sid).claim = none) (hl : Later h₁ h') : Outlasts h h' sid := by
  have hr₁ : Reachable h₁ := hr.later (Later.refl.move hm)
  have hr' := hr₁.later hl
  obtain ⟨hi, -, rfl⟩ := cancelAll_of_move? hm
  have hw₁ := Recalled.of_cancelAll hr hi hn
  have hw := hw₁.later hr₁ hl
  have hfree : (h'.session sid).Free := fun c hc => Option.some.inj (hc.symm.trans hw.claim)
  refine ⟨fun k arg => hr'.begins_nothing hfree, fun hb => ?_, fun e hp => hw.ending e (.inr hp),
    halts h', fun a hm' => ?_⟩
  · have hb₁ := posts_later hr₁ (by rw [Session.isSettled, hw₁.claim]; rfl) hl hb
    rwa [beats_cancelAll] at hb₁
  · obtain ⟨hi', rfl⟩ := run_of_move? hm'
    obtain ⟨b, hret, he⟩ := (hr'.sound hi').abort (hr'.opened_of_claim hw.claim) hw.cancelled
    exact ⟨b, hret, by rw [he.session], he.beats⟩

/-- A session without subscriptions. Once its post is acknowledged and all hooks have heard of it, it
ends well by a few steps of the hub alone, and it ends well only then. Cancelled as a whole while nobody
has decided it, it ends cancelled, unless it is running its post or the hooks after it: these it may
still bring to their end. -/
theorem unawaited_session_resolves (hr : Reachable h) (hm : (h.session sid).members = []) :
    (Acknowledged h sid → ∃ n ≤ 3, ∃ b, h.run? (List.replicate n .step) = some b ∧
      (b.session sid).phase = .ended (.resolved (.positive none))) ∧
    (∀ e, (h.session sid).phase = .ended e →
      (e = .resolved (.positive none) ↔ Acknowledged h sid)) ∧
    ∀ h₁ h', h.move? (.cancelAll sid) = some h₁ → (h.session sid).claim = none → Later h₁ h' →
      Outlasts h h' sid := by
  refine ⟨fun hk => ?_, fun e hp => ⟨?_, fun hk => ?_⟩, fun h₁ h' => Outlasts.of_cancelAll hr⟩
  · obtain ⟨n, hf⟩ := hr.finishing hm hk
    exact ⟨n, by cases hf <;> decide, hf.run hf.lt hm⟩
  · rintro rfl
    exact hr.acknowledged_of_ending (.inr hp)
  · obtain ⟨n, hf⟩ := hr.finishing hm hk
    cases hf with
    | done hq | releases hq | leaves hq => exact nomatch hp.symm.trans hq
    | ended hq => exact Phase.ended.inj (hp.symm.trans hq)

end

def hearsOfPost : List Move :=
  [.openSession none none, .run 0, .step, .addHook .acknowledge 1, .configured, .step, .step, .step,
    .postReplied .acknowledged, .step]

theorem acknowledged_session_ends_well :
    (∃ h, Reachable h ∧ Acknowledged h 0 ∧ ∃ n ≤ 3, ∃ b, h.run? (List.replicate n .step) = some b ∧
      (b.session 0).phase = .ended (.resolved (.positive none))) ∧
    ∃ h h₁, Reachable h ∧ h.move? (.cancelAll 0) = some h₁ ∧ (h.session 0).claim = none ∧
      ∀ h', Later h₁ h' → Outlasts h h' 0 := by
  constructor
  · obtain ⟨h, hr, hm, hk⟩ := Reachable.exists_of_run {} (hearsOfPost ++ [.hookReplied .done])
      (fun h => (h.session 0).members = [] ∧ h.beats 0 = (h.session 0).hooks.acknowledged) (by decide)
    exact ⟨h, hr, hk, (unawaited_session_resolves hr hm).1 hk⟩
  · obtain ⟨h, hr, hm, hn, hc⟩ := Reachable.exists_of_run {} (hearsOfPost ++ [.hookReplied .suspended])
      (fun h => (h.session 0).members = [] ∧ (h.session 0).claim = none ∧
        (h.move? (.cancelAll 0)).isSome) (by decide)
    obtain ⟨h₁, hc⟩ := Option.isSome_iff_exists.1 hc
    exact ⟨h, h₁, hr, hc, hn, fun h' => (unawaited_session_resolves hr hm).2.2 h₁ h' hc hn⟩

/-- A session without subscriptions that is cancelled in its last hook, before the hook has ended, may
end well all the same. -/
theorem cancelled_in_last_hook_ends_well : ¬ ∀ (h h₁ h' : Hub) (sid : SessionId) (e : Ending),
    Reachable h → (h.session sid).claim = none → ¬ Acknowledged h sid →
    h.move? (.cancelAll sid) = some h₁ → Later h₁ h' → (h'.session sid).members = [] →
    (h'.session sid).phase = .ended e → e.isBroken = false →
    e = .resolved (.negative .cancelled) := by
  intro hall
  obtain ⟨h, hr, hn, hk, hm⟩ := Reachable.exists_of_run {} hearsOfPost
    (fun h => (h.session 0).claim = none ∧ h.beats 0 ≠ (h.session 0).hooks.acknowledged ∧
      (h.move? (.cancelAll 0)).any fun h₁ =>
        (h₁.run? ([.step, .hookReplied .done] ++ List.replicate 3 .step)).any fun h' =>
          (h'.session 0).members = [] ∧
          (h'.session 0).phase = .ended (.resolved (.positive none))) (by decide)
  obtain ⟨h₁, hm, hrun⟩ := exists_of_any hm
  obtain ⟨h', hl, hmem, hp⟩ := Later.exists_of_run hrun
  exact nomatch hall h h₁ h' 0 _ hr hn hk hm hl hmem hp rfl

end Hub
end Aftermath
