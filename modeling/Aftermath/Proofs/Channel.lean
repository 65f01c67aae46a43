import Aftermath.Proofs.Sweep
import Aftermath.Proofs.Turn.Advance
import Aftermath.Proofs.Turn.Origin

/-! The channel of a session. What it carries comes from the session's own members, which are
registered before the transport hears of them, and as long as the session is not over somebody is
left who can report. A running session meets neither an unknown subscription nor a closed
channel. -/

namespace Aftermath

def Report.sub? : Report → Option SubId
  | .fired s _ | .timedOut s | .cancelled s => some s
  | .lost _ => none

/-- The task of the session was lost, or it has heard of a subscription it does not hold. -/
def Ending.isAborted : Ending → Bool
  | .failed (.aborted _) => true
  | _ => false

namespace Hub

def made (h : Hub) (sid : SessionId) : Nat :=
  (List.range h.subs.length).countP fun s => (h.sub s).home == sid

section
variable {h h' : Hub} {sid : SessionId} {m : Move} {x y : View} {r : Report} {s : SubId}
variable {e : Ending}

/-! ### What the channel carries -/

/-- A report that waits has waited before, or a subscription that was made for the session has just
sent it. -/
theorem Turn.reports_cases (ht : Turn h h' sid x y) (hr : r ∈ y.self.reports) :
    r ∈ x.self.reports ∨ Decides h sid r ∨
      ∃ s, r = .cancelled s ∧ s < h.subs.length ∧ (h.sub s).home = sid := by
  cases ht
  case opens => cases hr
  case decides hd _ _ =>
    refine (List.mem_append.1 hr).imp id fun hr => ?_
    cases List.mem_singleton.1 hr
    exact .inl hd
  case hears hs hh =>
    refine (List.mem_append.1 hr).imp id fun hr => ?_
    exact .inr ⟨_, List.mem_singleton.1 hr, hs, hh⟩
  case drives hd =>
    cases hd
    case dismisses hq _ | deserted hq _ | resolves hq =>
      left
      show r ∈ Session.reports _
      rw [hq]
      exact List.mem_cons_of_mem _ hr
    all_goals exact .inl hr
  all_goals exact .inl hr

/-- Whoever has just decided a session is one of its members. -/
theorem Decides.mem_members (hd : Decides h sid r) (hw : Wired h) (hs : r.sub? = some s) :
    s ∈ (h.session sid).members := by
  cases hd with
  | fired hst hh | timedOut hst hh =>
    cases hs
    have hlt := hw.sub_lt hst rfl
    exact hh ▸ hw.own s hlt
  | lost => cases hs

/-- A report that waits is about a member of the session. -/
theorem Reachable.mem_members_of_reported (hr : Reachable h) (hq : r ∈ (h.session sid).reports)
    (hs : r.sub? = some s) : s ∈ (h.session sid).members := by
  induction hr using Reachable.induct with
  | init settings => cases hq
  | move a b m ha hm ih =>
    have hmv := moved_of_move? hm
    apply members_move ha hmv
    rcases (move_turn ha.wired hmv sid).reports_cases hq with hq | hd | ⟨t, rfl, ht, hh⟩
    · exact ih hq
    · exact hd.mem_members ha.wired hs
    · cases hs
      exact hh ▸ ha.wired.own s ht

/-- The report that a session acts on is about a member of it. -/
theorem Reachable.mem_members_of_resolving (hr : Reachable h)
    (hp : (h.session sid).phase = .resolving r) (hs : r.sub? = some s) :
    s ∈ (h.session sid).members := by
  have hj := hr.judged sid
  have hc := hj.resolving hp
  cases r with
  | fired t a => cases hs; exact ((hr.backed sid).fired s a hc).1
  | timedOut t => cases hs; exact ((hr.backed sid).timedOut s hc).1
  | lost n => cases hs
  | cancelled t =>
    unfold Judged at hj
    simp only [hp] at hj
    cases hj.1

/-! ### Who can still report -/

theorem made_eq (hl : h'.subs.length = h.subs.length)
    (hh : ∀ s < h.subs.length, (h'.sub s).home = (h.sub s).home) (sid : SessionId) :
    h'.made sid = h.made sid := by
  unfold made
  rw [hl]
  refine List.countP_congr fun s hs => ?_
  rw [hh s (List.mem_range.1 hs)]

/-- A subscription is made for one session. -/
theorem made_subscribe (hw : Wired h) {i : SessionId} {rest : List Frame}
    (hst : h.stack = .configuring i :: rest) (key : Key) (kind : Kind) (sid : SessionId) :
    (h.subscribe i key kind).made sid = h.made sid + if i = sid then 1 else 0 := by
  have hm : Moved h (.subscribe key kind) (h.subscribe i key kind) := .subscribe hst
  have hold : (List.range h.subs.length).countP
      (fun s => ((h.subscribe i key kind).sub s).home == sid) = h.made sid := by
    refine List.countP_congr fun s hs => ?_
    rw [(sub_fixed hw hm (List.mem_range.1 hs)).1]
  unfold made at hold ⊢
  rw [subs_length_subscribe, List.range_succ, List.countP_append, hold, List.countP_singleton,
    home_subscribe]
  simp only [beq_iff_eq]

/-- A session that has not been opened has no subscriptions. -/
theorem made_of_unopened (ha : Reachable h) (hu : (h.session sid).phase = .unopened) :
    h.made sid = 0 := by
  refine List.countP_eq_zero.2 fun s hs hh => ?_
  exact not_mem_of_unopened ha (ha.judged sid) hu (List.mem_range.1 hs) (eq_of_beq hh)

/-- While a session is alive its own handle and those of its subscriptions are held. -/
theorem Reachable.holders_eq (hr : Reachable h) (hp : (h.session sid).phase.isAlive) :
    (h.session sid).holders = h.made sid + 1 := by
  induction hr using Reachable.induct with
  | init settings => cases hp
  | move a b m ha hm ih =>
    have hmv := moved_of_move? hm
    have hcases := (move_turn ha.wired hmv sid).holders_cases (ha.fits sid) hp
    simp only [view_self] at hcases
    -- a move that makes no subscription
    have other : b.subs.length = a.subs.length → (b.session sid).holders = b.made sid + 1 := by
      intro hl
      rw [made_eq hl (fun s hs => (sub_fixed ha.wired hmv hs).1)]
      rcases hcases with ⟨hx, he | ⟨-, hlt⟩⟩ | ⟨hu, he⟩
      · rw [he, ih hx]
      · rw [hl] at hlt; exact absurd hlt (Nat.lt_irrefl _)
      · rw [he, made_of_unopened ha hu]
    rcases size_move hmv with hz | ⟨i, rest, key, kind, hst, rfl⟩ | ⟨_, _, rfl⟩
    · exact other (congrArg Prod.fst hz)
    · rw [made_subscribe ha.wired hst]
      by_cases hi : i = sid
      · subst hi
        have hlt : i < a.sessions.length := (hst ▸ ha.wired.laid).1
        have hv : ((a.subscribe i key kind).view i).self = _ :=
          congrArg View.self (view_subscribe ha.wired hlt key kind)
        rw [if_pos rfl] at hv
        simp only [view_self] at hv
        rw [hv] at hp ⊢
        rw [if_pos rfl, ← ih hp]
      · have hv : (a.subscribe i key kind).session sid = a.session sid :=
          congrArg View.self (view_subscribe_other (Ne.symm hi) key kind)
        rw [hv] at hp ⊢
        rw [if_neg hi, ih hp]
    · exact other rfl

/-! ### What a running session does with it -/

theorem phase_setPhase (hi : sid < h.sessions.length) (p : Phase) :
    ((h.setPhase sid p).session sid).phase = p := by
  rw [setPhase, session_onSession _ _ _ hi, if_pos rfl]

/-- A session that acts on a report finds the subscription it is about. -/
theorem handling_of_resolving (ha : Reachable h) {rest : List Frame}
    (hst : h.stack = .driving sid :: rest) (hm : h.move? m = some h')
    (hp : (h.session sid).phase = .resolving r) (hs : r.sub? = some s) :
    ∃ ks arg o, (h'.session sid).phase = .handling ks arg (.resolved o) := by
  have hin := ha.mem_members_of_resolving hp hs
  have hi : sid < h.sessions.length := (hst ▸ ha.wired.laid).1
  obtain ⟨-, hn⟩ := (hp ▸ ha.fits sid).of_passing rfl rfl nofun
  have hd : h' = h.resolve sid r := by
    rw [(step_of_driving hst hm).2, drive]
    simp only [hn, hp]
  rw [hd]
  unfold resolve
  cases r with
  | fired t a | timedOut t =>
    cases hs
    dsimp only
    rw [if_pos (by simpa using hin)]
    exact ⟨_, _, _, phase_setPhase (by exact hi) _⟩
  | lost n => cases hs
  | cancelled t =>
    have hj := ha.judged sid
    unfold Judged at hj
    simp only [hp] at hj
    cases hj.1

/-- A session that waits and has heard nothing goes on waiting. -/
theorem pending_of_awaiting (ha : Reachable h) {rest : List Frame}
    (hst : h.stack = .driving sid :: rest) (hm : h.move? m = some h')
    (hp : (h.session sid).phase = .awaiting) (hq : (h.session sid).reports = []) :
    h' = h.pop.reply .pending := by
  have hf := ha.fits sid
  rw [hp, thread_of_stack hst rfl] at hf
  have hn : (h.session sid).running = none := by
    cases hr : (h.session sid).running with
    | none => rfl
    | some q => cases hf.of_driving.2.2 (hr ▸ rfl)
  rw [(step_of_driving hst hm).2, drive]
  simp only [hn, hp]
  unfold await
  simp only [hq, if_neg (ha.held sid (by rw [hp]; rfl))]

/-- The handlers that are found for a session lead to an outcome. -/
theorem Handles.not_aborted {x : Session} {ks : List HookId} {arg : Argument}
    (hh : Handles h sid x ks arg e) : e.isAborted = false := by
  cases hh <;> rfl

/-- No session ends as one that has heard of a subscription it does not hold. -/
theorem Reachable.not_aborted (hr : Reachable h)
    (hp : (h.session sid).phase = .closing e ∨ (h.session sid).phase = .ended e) :
    e.isAborted = false := by
  induction hr using Reachable.induct with
  | init settings => rcases hp with hp | hp <;> cases hp
  | move a b m ha hm ih =>
    have ht := move_turn ha.wired (moved_of_move? hm) sid
    rcases ht.ending_cases hp with hp | ⟨-, ⟨hc, -⟩ | hb⟩
    · exact ih hp
    · cases hc with
      | unknown hq hn =>
        rcases hq with ⟨c, hq⟩ | hq <;> exact absurd (ha.mem_members_of_resolving hq rfl) hn
      | handled hq =>
        obtain ⟨_, _, _, hh⟩ := ha.found_of_handling hq
        exact hh.not_aborted
      | _ => rfl
    · cases e with
      | resolved | panicked => rfl
      | failed f => cases f <;> first | rfl | cases hb

/-- The unreachable branches of a session that waits. Whatever is reported to it, and whatever it acts
on, is about a subscription it holds, so it finds it; its channel is held open by its own handle and
one for each subscription that was made for it, so a session that has heard nothing waits; and no
session ends as aborted. -/
theorem reports_find_members (hr : Reachable h) (sid : SessionId) :
    (∀ r s, r ∈ (h.session sid).reports ∨ (h.session sid).phase = .resolving r → r.sub? = some s →
      s ∈ (h.session sid).members) ∧
    ((h.session sid).phase.isAlive → (h.session sid).holders = h.made sid + 1) ∧
    (∀ h' m rest, h.stack = .driving sid :: rest → h.move? m = some h' →
      (∀ r s, (h.session sid).phase = .resolving r → r.sub? = some s →
        ∃ ks arg o, (h'.session sid).phase = .handling ks arg (.resolved o)) ∧
      ((h.session sid).phase = .awaiting → (h.session sid).reports = [] →
        h' = h.pop.reply .pending)) ∧
    ∀ e, (h.session sid).phase = .closing e ∨ (h.session sid).phase = .ended e →
      e.isAborted = false := by
  refine ⟨fun r s hq hs => ?_, hr.holders_eq, fun h' m rest hst hm => ⟨fun r s hp hs => ?_, ?_⟩, ?_⟩
  · rcases hq with hq | hq
    · exact hr.mem_members_of_reported hq hs
    · exact hr.mem_members_of_resolving hq hs
  · exact handling_of_resolving hr hst hm hp hs
  · exact pending_of_awaiting hr hst hm
  · exact fun e hp => hr.not_aborted hp

end

/-- The transport delivers while it is still asked for the subscription. -/
def deliveredEarly : List Move :=
  [.openSession none none, .run 0, .step, .subscribe default .event,
    .deliver 0 ⟨default, .blank⟩, .step]

theorem early_report_finds_member : ∃ h, Reachable h ∧
    h.stack.head? = some (.subscribing 0) ∧
    .fired 0 ⟨default, .blank⟩ ∈ (h.session 0).reports ∧ 0 ∈ (h.session 0).members ∧
    (h.session 0).holders = h.made 0 + 1 := by
  obtain ⟨h, hr, hst, hq, ha⟩ := Reachable.exists_of_run {} deliveredEarly
    (fun h => h.stack.head? = some (.subscribing 0) ∧
      .fired 0 ⟨default, .blank⟩ ∈ (h.session 0).reports ∧ (h.session 0).phase.isAlive) (by decide)
  obtain ⟨hin, hheld, -⟩ := reports_find_members hr 0
  exact ⟨h, hr, hst, hq, hin _ 0 (.inl hq) rfl, hheld ha⟩

end Hub
end Aftermath
