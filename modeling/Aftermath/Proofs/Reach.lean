import Aftermath.Hub.Move

/-! Moves and runs of a hub. A move is one of the cases of `Moved`; what the first hub satisfies and
every move keeps holds of every hub that can be reached. -/

namespace Aftermath.Hub

/-- The cases of a move. -/
inductive Moved (h : Hub) : Move → Hub → Prop where
  -- Steps of the frame on top.
  | settleEvent {s e rest} : h.stack = .settlingEvent s e :: rest →
      Moved h .step (h.pop.settleEvent s e)
  | settleTimeout {s rest} : h.stack = .settlingTimeout s :: rest →
      Moved h .step (h.pop.settleTimeout s)
  | reportCancel {s rest} : h.stack = .reportingCancel s :: rest →
      Moved h .step (h.pop.reportCancel s)
  | releaseStep {sid l n rest} : h.stack = .releasing sid l n :: rest →
      Moved h .step (h.pop.releaseStep sid l n)
  | enter {sid rest} : h.stack = .entering sid :: rest → Moved h .step (h.enter sid)
  | drive {sid rest} : h.stack = .driving sid :: rest → Moved h .step (h.drive sid)
  -- Calls.
  | pass {moment} : h.mayPass moment → Moved h (.pass moment) { h with clock := moment }
  | newToken : Moved h .newToken { h with tokens := h.tokens ++ [{}] }
  | newModal : Moved h .newModal { h with modals := h.modals ++ [{}] }
  | openSession {token modal} : Moved h (.openSession token modal)
      { h with sessions := h.sessions ++ [{ token, modal }] }
  | configure {sid} : sid < h.sessions.length → (h.session sid).phase = .unopened →
      h.isRunning sid = false → Moved h (.configure sid) (h.prepare sid)
  | run {sid} : h.mayRun sid → Moved h (.run sid) (h.push (.entering sid))
  | drop {sid} : h.mayRun sid → Moved h (.drop sid) (h.drop sid)
  | deliver {s e} : s < h.subs.length → Moved h (.deliver s e) (h.deliver s e)
  | fail {s e} : s < h.subs.length → Moved h (.fail s e) (h.fail s e)
  | cancel {s} : s < h.subs.length → Moved h (.cancel s) (h.cancel s)
  | ring {s generation} : s < h.subs.length → h.mayRing s generation →
      Moved h (.ring s generation) (h.ring s generation)
  | cancelAll {sid} : h.isReachable sid → Moved h (.cancelAll sid) (h.cancelAll sid)
  | cancelToken {t} : t < h.tokens.length → Moved h (.cancelToken t) (h.cancelToken t)
  | register {sid s} : h.isReachable sid → s < h.subs.length →
      Moved h (.register sid s) (h.register sid s)
  | handleWith {s k} : s < h.subs.length →
      Moved h (.handleWith s k) (h.onSub s fun sub => { sub with handler := some k })
  | timeoutAfter {s ms} : s < h.subs.length → Moved h (.timeoutAfter s ms) (h.setTimeout s ms)
  | timeoutWith {s ms k} : s < h.subs.length → Moved h (.timeoutWith s ms k)
      ((h.onSub s fun sub => { sub with timeoutHandler := some k }).setTimeout s ms)
  | subscribe {sid rest key kind} : h.stack = .configuring sid :: rest →
      Moved h (.subscribe key kind) (h.subscribe sid key kind)
  | addHook {sid rest slot k} : h.stack = .configuring sid :: rest → Moved h (.addHook slot k)
      (h.onSession sid fun x => { x with hooks := x.hooks.add k slot })
  | defaultTimeout {sid rest ms} : h.stack = .configuring sid :: rest →
      Moved h (.defaultTimeout ms) (h.onSession sid fun x => { x with timeout := some ms })
  | configured {sid rest} : h.stack = .configuring sid :: rest →
      Moved h .configured (h.pop.configured sid)
  -- Answers to the frame on top.
  | granted {s rest l} : h.stack = .subscribing s :: rest → Moved h (.granted l) (h.pop.grant s l)
  | declined {s rest e} : h.stack = .subscribing s :: rest →
      Moved h (.declined e) (h.pop.decline s e)
  | unsubscribed {l rest} : h.stack = .unsubscribing l :: rest → Moved h .unsubscribed h.pop
  | hookReplied {sid k arg rest r} : h.stack = .hook sid k arg :: rest →
      Moved h (.hookReplied r) (h.pop.hookReplied sid k r)
  | postReplied {sid rest r} : h.stack = .posting sid :: rest →
      Moved h (.postReplied r) (h.pop.postReplied sid r)

theorem moved_of_step {h : Hub} (hb : h.isBusy) : Moved h .step h.step := by
  unfold step
  split
  · next hst => exact .settleEvent hst
  · next hst => exact .settleTimeout hst
  · next hst => exact .reportCancel hst
  · next hst => exact .releaseStep hst
  · next hst => exact .enter hst
  · next hst => exact .drive hst
  · next h1 h2 h3 h4 h5 h6 =>
    unfold isBusy at hb
    split at hb
    · cases hb
    · next f rest hst =>
      cases f <;> first
        | exact (h1 _ _ _ hst).elim | exact (h2 _ _ hst).elim | exact (h3 _ _ hst).elim
        | exact (h4 _ _ _ _ hst).elim | exact (h5 _ _ hst).elim | exact (h6 _ _ hst).elim
        | cases hb

theorem moved_of_call {h h' : Hub} {m : Move} (hm : h.call? m = some h') : Moved h m h' := by
  cases m <;> simp only [call?, Option.ite_none_right_eq_some, Option.some.injEq, Bool.and_eq_true,
    decide_eq_true_eq, beq_iff_eq, Bool.not_eq_true', reduceCtorEq] at hm
  case newToken => subst hm; exact .newToken
  case newModal => subst hm; exact .newModal
  case openSession => subst hm; exact .openSession
  case pass => obtain ⟨hg, rfl⟩ := hm; exact .pass hg
  case configure => obtain ⟨⟨⟨hs, hp⟩, hr⟩, rfl⟩ := hm; exact .configure hs hp hr
  case run => obtain ⟨hg, rfl⟩ := hm; exact .run hg
  case drop => obtain ⟨hg, rfl⟩ := hm; exact .drop hg
  case deliver => obtain ⟨hg, rfl⟩ := hm; exact .deliver hg
  case fail => obtain ⟨hg, rfl⟩ := hm; exact .fail hg
  case cancel => obtain ⟨hg, rfl⟩ := hm; exact .cancel hg
  case ring => obtain ⟨⟨hs, hg⟩, rfl⟩ := hm; exact .ring hs hg
  case cancelAll => obtain ⟨hg, rfl⟩ := hm; exact .cancelAll hg
  case cancelToken => obtain ⟨hg, rfl⟩ := hm; exact .cancelToken hg
  case register => obtain ⟨⟨hg, hs⟩, rfl⟩ := hm; exact .register hg hs
  case handleWith => obtain ⟨hg, rfl⟩ := hm; exact .handleWith hg
  case timeoutAfter => obtain ⟨hg, rfl⟩ := hm; exact .timeoutAfter hg
  case timeoutWith => obtain ⟨hg, rfl⟩ := hm; exact .timeoutWith hg
  -- The frame on top is the one that is called or answered.
  all_goals
    split at hm
    · next hst =>
      cases hm
      first
        | exact .subscribe hst | exact .addHook hst | exact .defaultTimeout hst
        | exact .configured hst | exact .granted hst | exact .declined hst | exact .unsubscribed hst
        | exact .hookReplied hst | exact .postReplied hst
    · cases hm

theorem moved_of_move? {h h' : Hub} {m : Move} (hm : h.move? m = some h') : Moved h m h' := by
  unfold move? at hm
  split at hm
  · next hb =>
    split at hm
    · cases hm; exact moved_of_step hb
    · cases hm
  · exact moved_of_call hm

theorem move?_of_idle {h : Hub} (hb : h.isBusy = false) (m : Move) : h.move? m = h.call? m := by
  unfold move?
  rw [hb]
  rfl

def run? (h : Hub) : List Move → Option Hub
  | [] => some h
  | m :: ms => (h.move? m).bind (·.run? ms)

theorem run?_append (h : Hub) (ms ns : List Move) :
    h.run? (ms ++ ns) = (h.run? ms).bind (·.run? ns) := by
  induction ms generalizing h with
  | nil => rfl
  | cons m ms ih =>
    rw [List.cons_append, run?, run?, Option.bind_assoc]
    congr 1
    funext a
    exact ih a

/-- The second hub comes after the first, by any moves. -/
inductive Later (h : Hub) : Hub → Prop where
  | refl : Later h h
  | move {a b : Hub} {m : Move} : Later h a → a.move? m = some b → Later h b

/-- A hub that has come from nothing, under some settings. -/
def Reachable (h : Hub) : Prop := ∃ settings : Settings, Later { settings } h

theorem Later.trans {a b c : Hub} (hab : Later a b) (hbc : Later b c) : Later a c := by
  induction hbc with
  | refl => exact hab
  | move _ hm ih => exact ih.move hm

theorem Later.of_run? {h h' : Hub} {ms : List Move} (hr : h.run? ms = some h') : Later h h' := by
  induction ms generalizing h with
  | nil => cases hr; exact .refl
  | cons m ms ih =>
    obtain ⟨a, ha, hr⟩ := Option.bind_eq_some_iff.1 hr
    exact (Later.refl.move ha).trans (ih hr)

theorem Reachable.later {h h' : Hub} (hr : Reachable h) (hl : Later h h') : Reachable h' :=
  ⟨hr.choose, hr.choose_spec.trans hl⟩

/-- A run that is carried out shows where it leads. -/
theorem Later.exists_of_run {h : Hub} {ms : List Move} {p : Hub → Prop} [DecidablePred p]
    (hr : (h.run? ms).any (p ·)) : ∃ h', Later h h' ∧ p h' := by
  cases he : h.run? ms with
  | none => rw [he] at hr; cases hr
  | some h' => rw [he] at hr; exact ⟨h', .of_run? he, of_decide_eq_true hr⟩

theorem Reachable.exists_of_run (settings : Settings) (ms : List Move) (p : Hub → Prop)
    [DecidablePred p] (hr : (run? { settings } ms).any (p ·)) : ∃ h, Reachable h ∧ p h := by
  obtain ⟨h, hl, hp⟩ := Later.exists_of_run hr
  exact ⟨h, ⟨settings, hl⟩, hp⟩

/-- What holds at first and is kept by every move holds of every hub that can be reached. -/
@[elab_as_elim]
theorem Reachable.induct {P : (h : Hub) → Reachable h → Prop}
    (init : ∀ settings : Settings, P { settings } ⟨settings, .refl⟩)
    (move : ∀ a b m (ha : Reachable a) (hm : a.move? m = some b), P a ha →
      P b (ha.later (Later.refl.move hm)))
    {h : Hub} (hr : Reachable h) : P h hr := by
  obtain ⟨settings, hl⟩ := hr
  induction hl with
  | refl => exact init settings
  | move ha hm ih => exact move _ _ _ ⟨settings, ha⟩ hm ih

end Aftermath.Hub
