import Aftermath.Proofs.Shift

/-! What one move does to one session. A turn changes the record of the session, its frames on the
stack and its beats. -/

namespace Aftermath

/-- The hook that comes next, what it is called with, and the phase it runs in. -/
def Phase.next? : Phase → Option (HookId × Argument × Phase)
  | .preparing (k :: ks) => some (k, .nothing, .preparing ks)
  | .acknowledging (k :: ks) => some (k, .nothing, .acknowledging ks)
  | .handling (k :: ks) arg e => some (k, arg, .handling ks arg e)
  | _ => none

/-- A session in such a phase has nothing to run: it is not configured yet, or it is over. -/
def Phase.isStill : Phase → Bool
  | .unopened | .configuring | .prepared | .ended _ | .dropped | .forgone => true
  | _ => false

def Frame.isRun : Frame → Bool
  | .entering _ | .driving _ | .configuring _ => true
  | _ => false

namespace Hub

/-- How a subscription or a lost connection can decide a session. -/
inductive Decides (h : Hub) (sid : SessionId) : Report → Prop where
  | fired {s : SubId} {e : Envelope} {rest : List Frame} :
      h.stack = .settlingEvent s e :: rest → (h.sub s).home = sid → Decides h sid (.fired s e)
  | timedOut {s : SubId} {rest : List Frame} :
      h.stack = .settlingTimeout s :: rest → (h.sub s).home = sid → Decides h sid (.timedOut s)
  | lost {s : SubId} {e : NetworkError} :
      (h.sub s).isActive → (h.sub s).home = sid → Decides h sid (.lost e)

/-- The handlers that hear how a session was decided, and the ending they lead to. -/
inductive Handles (h : Hub) (sid : SessionId) (x : Session) :
    List HookId → Argument → Ending → Prop where
  | fired {s : SubId} {e : Envelope} : x.phase = .resolving (.fired s e) → s ∈ x.members →
      Handles h sid x ((h.sub s).handler.or (x.hooks.forKind (h.sub s).kind)).toList (.event e)
        (.resolved (if (h.sub s).kind.isRejection then .negative (.rejected e.key)
          else .positive (some e.key)))
  | timedOut {s : SubId} : x.phase = .resolving (.timedOut s) → s ∈ x.members →
      Handles h sid x ((h.sub s).timeoutHandler.or x.hooks.anyTimeout).toList
        (.timeout (h.sub s).key) (.resolved (.negative (.timedOut (h.sub s).key)))
  | failure {e : PostError} {ks : List HookId} {arg : Argument} :
      x.phase = .refused e ∨ (∃ n, x.phase = .resolving (.lost n) ∧ e = .network n) →
      x.hooks.forError e = (ks, arg) → ks ≠ [] → Handles h sid x ks arg (.resolved (.errored e))

inductive Closes (h : Hub) (sid : SessionId) (x : Session) : Ending → Prop where
  | unready : x.phase = .unready → Closes h sid x (.resolved (.negative
      (match h.firstError? sid with | some e => .subscribeFailed e | none => .cancelled)))
  | unawaited : x.phase = .acknowledging [] → x.members = [] → Closes h sid x (.resolved (.positive none))
  | unheld : x.phase = .awaiting → x.reports = [] → x.holders = 0 →
      Closes h sid x (.resolved (.negative .cancelled))
  | unknown {s : SubId} : (∃ e, x.phase = .resolving (.fired s e)) ∨ x.phase = .resolving (.timedOut s) →
      s ∉ x.members → Closes h sid x (.failed unknownSubscription)
  | unhandled {e : PostError} :
      x.phase = .refused e ∨ (∃ n, x.phase = .resolving (.lost n) ∧ e = .network n) →
      (x.hooks.forError e).1 = [] → Closes h sid x (.failed (.unhandled e.category e.text))
  | unheard {e : PostError} : x.phase = .unheard e →
      Closes h sid x (.failed (.unhandled e.category e.text))
  | deserted : x.phase = .deserted → Closes h sid x (.resolved (.negative .cancelled))
  | handled {arg : Argument} {e : Ending} : x.phase = .handling [] arg e → Closes h sid x e
  | cancelling : x.phase = .cancelling → Closes h sid x (.resolved (.negative .cancelled))

/-- A release of all its subscriptions stands right above a session that is coming to its end. -/
def Releases (h : Hub) (sid : SessionId) (x : Session) : Prop :=
  ∃ l, h.stack = .releasing sid x.members 0 :: .driving sid :: l

/-- One step of a session that runs, its frame on top of the stack and no hook of it under way. -/
inductive Drives (h h' : Hub) (sid : SessionId) : View → View → Prop where
  | fails {x t b} : x.phase = .checking → x.claim = none → h.allActive sid = false →
      Drives h h' sid ⟨x, t, b⟩ ⟨{ x with phase := .unready, claim := some .unready }, t, b⟩
  | skips {x t b} : x.phase = .checking → x.isSettled →
      Drives h h' sid ⟨x, t, b⟩ ⟨{ x with phase := .preparing [] }, t, b⟩
  | passes {x t b} : x.phase = .checking → x.claim = none → h.allActive sid →
      Drives h h' sid ⟨x, t, b⟩ ⟨{ x with phase := .preparing x.hooks.beforePost }, t, b⟩
  | begins {x t b k arg p} : x.phase.next? = some (k, arg, p) →
      Drives h h' sid ⟨x, t, b⟩
        ⟨{ x with phase := p, running := some (k, arg) }, .hook sid k arg :: t, b ++ [.begins k arg]⟩
  | decided {x t b} : x.phase = .preparing [] → x.isSettled →
      Drives h h' sid ⟨x, t, b⟩ ⟨{ x with phase := .awaiting }, t, b⟩
  | posts {x t b} : x.phase = .preparing [] → x.claim = none →
      Drives h h' sid ⟨x, t, b⟩ ⟨{ x with phase := .posting }, .posting sid :: t, b ++ [.posts]⟩
  | resumes {x t b} : x.phase = .posting → Drives h h' sid ⟨x, t, b⟩ ⟨x, .posting sid :: t, b⟩
  | awaits {x t b} : x.phase = .acknowledging [] → x.members ≠ [] →
      (x.claim = none → ∀ s ∈ x.members, (h'.sub s).isActive →
        (h'.sub s).armed ∧ (h'.sub s).countdown.isArmed) →
      Drives h h' sid ⟨x, t, b⟩ ⟨{ x with phase := .awaiting }, t, b⟩
  | waits {x t b} : x.phase = .awaiting → x.reports = [] →
      Drives h h' sid ⟨x, .driving sid :: t, b⟩ ⟨x, t, b⟩
  | dismisses {x t b s rs} : x.phase = .awaiting → x.reports = .cancelled s :: rs →
      (x.isSettled ∨ h.allCancelled sid = false) →
      Drives h h' sid ⟨x, t, b⟩ ⟨{ x with reports := rs }, t, b⟩
  | deserted {x t b s rs} : x.phase = .awaiting → x.reports = .cancelled s :: rs →
      x.claim = none → h.allCancelled sid →
      Drives h h' sid ⟨x, t, b⟩
        ⟨{ x with reports := rs, phase := .deserted, claim := some .deserted }, t, b⟩
  | resolves {x t b r rs} : x.phase = .awaiting → x.reports = r :: rs → r.claim?.isSome →
      Drives h h' sid ⟨x, t, b⟩
        ⟨({ x with reports := rs, phase := .resolving r }).settled .ended, t, b⟩
  | returns {x t b s} : x.phase = .resolving (.cancelled s) →
      Drives h h' sid ⟨x, t, b⟩ ⟨{ x with phase := .awaiting }, t, b⟩
  | handles {x t b ks arg e} : Handles h sid x ks arg e →
      Drives h h' sid ⟨x, t, b⟩ ⟨{ x with phase := .handling ks arg e }, t, b⟩
  | closes {x t b e} : Closes h sid x e → h'.Releases sid x →
      Drives h h' sid ⟨x, t, b⟩ ⟨({ x with phase := .closing e }).settled .ended, t, b⟩
  | leaves {x t b e} : x.phase = .closing e →
      Drives h h' sid ⟨x, .driving sid :: t, b⟩
        ⟨{ x with phase := .ended e, holders := x.holders - 1 }, t, b⟩
  | vanishes {x t b} : x.phase = .dropping →
      Drives h h' sid ⟨x, .driving sid :: t, b⟩
        ⟨{ x with phase := .dropped, holders := x.holders - 1 }, t, b⟩
  | stops {x t b} : x.phase.isStill → Drives h h' sid ⟨x, .driving sid :: t, b⟩ ⟨x, t, b⟩

/-- What one move does to one session. -/
inductive Turn (h h' : Hub) (sid : SessionId) : View → View → Prop where
  | idle {v} : Turn h h' sid v v
  | opens {t b token modal} : Turn h h' sid ⟨default, t, b⟩ ⟨{ token, modal }, t, b⟩
  -- What its surroundings do to it.
  | decides {x t b r c} : Decides h sid r → r.claim? = some c → x.claim = none →
      Turn h h' sid ⟨x, t, b⟩ ⟨{ x with claim := some c, reports := x.reports ++ [r] }, t, b⟩
  | hears {x t b s} : s < h.subs.length → (h.sub s).home = sid →
      Turn h h' sid ⟨x, t, b⟩ ⟨{ x with reports := x.reports ++ [.cancelled s] }, t, b⟩
  | revoked {x t b} : Turn h h' sid ⟨x, t, b⟩ ⟨{ x with cancelled := true }, t, b⟩
  | withdrawn {x t b} : x.phase ≠ .unopened → x.phase ≠ .forgone →
      Turn h h' sid ⟨x, t, b⟩ ⟨({ x with cancelled := true }).settled .cancelled, t, b⟩
  | enrols {x t b s} : s < h.subs.length → x.phase ≠ .unopened → s ∉ x.members →
      (x.isSettled → (h'.sub s).isActive = false) →
      Turn h h' sid ⟨x, t, b⟩ ⟨{ x with members := x.members ++ [s] }, t, b⟩
  | subscribes {x t b} : h.subs.length ∉ x.members → h.subs.length < h'.subs.length →
      Turn h h' sid ⟨x, .configuring sid :: t, b⟩
        ⟨{ x with members := x.members ++ [h.subs.length], holders := x.holders + 1 },
          .configuring sid :: t, b⟩
  | hooks {x t b k slot} : Turn h h' sid ⟨x, .configuring sid :: t, b⟩
      ⟨{ x with hooks := x.hooks.add k slot }, .configuring sid :: t, b⟩
  | timeout {x t b ms} : Turn h h' sid ⟨x, .configuring sid :: t, b⟩
      ⟨{ x with timeout := some ms }, .configuring sid :: t, b⟩
  -- How it is opened, run and given up.
  | prepares {x t b c} : x.phase = .unopened →
      (t.any Frame.isRun = false ∨ ∃ u, t = .entering sid :: u) →
      Turn h h' sid ⟨x, t, b⟩
        ⟨{ x with cancelled := c, holders := 1, phase := .configuring }, .configuring sid :: t, b⟩
  | configured {x t b} : Turn h h' sid ⟨x, .configuring sid :: t, b⟩ ⟨{ x with phase := .prepared }, t, b⟩
  | runs {x t b} : t.any Frame.isRun = false → x.isOver = false →
      Turn h h' sid ⟨x, t, b⟩ ⟨x, .entering sid :: t, b⟩
  | enters {x t b} : x.phase ≠ .unopened → x.cancelled = false →
      Turn h h' sid ⟨x, .entering sid :: t, b⟩
        ⟨{ x with phase := if x.phase = .prepared then .checking else x.phase },
          .driving sid :: t, b⟩
  | aborts {x t b} : x.phase ≠ .unopened → x.cancelled →
      Turn h h' sid ⟨x, .entering sid :: t, b⟩
        ⟨({ x with running := none, phase := .cancelling }).settled .cancelled, .driving sid :: t, b⟩
  | drops {x t b} : t.any Frame.isRun = false → x.isUnderWay → h'.Releases sid x →
      Turn h h' sid ⟨x, t, b⟩
        ⟨({ x with running := none, phase := .dropping }).settled .ended, .driving sid :: t, b⟩
  | forgets {x t b} : t.any Frame.isRun = false → x.isOver = false → x.isUnderWay = false →
      Turn h h' sid ⟨x, t, b⟩
        ⟨{ x with phase := if x.phase = .unopened then .forgone else .dropped }, t, b⟩
  -- Its own steps.
  | rehooks {x t b k arg} : x.running = some (k, arg) →
      Turn h h' sid ⟨x, .driving sid :: t, b⟩ ⟨x, .hook sid k arg :: .driving sid :: t, b⟩
  | drives {x t b v} : x.running = none → Drives h h' sid ⟨x, .driving sid :: t, b⟩ v →
      Turn h h' sid ⟨x, .driving sid :: t, b⟩ v
  | ends {x t b k arg} : Turn h h' sid ⟨x, .hook sid k arg :: t, b⟩
      ⟨{ x with running := none }, t, b ++ [.ends k]⟩
  | breaks {x t b k arg e} : (∃ m, e = .failed (.hook m)) ∨ (∃ m, e = .panicked m) →
      h'.Releases sid x →
      Turn h h' sid ⟨x, .hook sid k arg :: t, b⟩
        ⟨({ x with running := none, phase := .closing e }).settled .ended, t, b⟩
  | pauses {x t b f} : Turn h h' sid ⟨x, f :: .driving sid :: t, b⟩ ⟨x, t, b⟩
  | acknowledged {x t b} : Turn h h' sid ⟨x, .posting sid :: t, b⟩
      ⟨{ x with phase := .acknowledging x.hooks.acknowledge }, t, b ++ [.acknowledged]⟩
  | refused {x t b e} : x.claim = none → Turn h h' sid ⟨x, .posting sid :: t, b⟩
      ⟨{ x with phase := .refused e, claim := some (.refused e) }, t, b ++ [.refused e]⟩
  | unheard {x t b e} : x.isSettled → (x.hooks.forError e).1 = [] →
      Turn h h' sid ⟨x, .posting sid :: t, b⟩ ⟨{ x with phase := .unheard e }, t, b ++ [.refused e]⟩
  | belated {x t b e} : x.isSettled → (x.hooks.forError e).1 ≠ [] →
      Turn h h' sid ⟨x, .posting sid :: t, b⟩ ⟨{ x with phase := .awaiting }, t, b ++ [.refused e]⟩

/-! ### Views -/

section
variable {h : Hub} {i : SessionId} {rest : List Frame}

theorem Turn.of_ite {h h' : Hub} {c : Prop} [Decidable c] {v w : View} {sid : SessionId}
    (k : c → Turn h h' sid v w) : Turn h h' sid v (if c then w else v) := by
  split
  · next hc => exact k hc
  · exact .idle

theorem view_self : (h.view i).self = h.session i := rfl

theorem view_thread : (h.view i).thread = h.thread i := rfl

theorem view_beats : (h.view i).beats = h.beats i := rfl

theorem view_driving (hst : h.stack = .driving i :: rest) :
    h.view i = ⟨h.session i, .driving i :: h.pop.thread i, h.beats i⟩ := by
  rw [view_of_stack _ _ hst, if_pos (by rfl)]; rfl

end
end Hub
end Aftermath
