import Aftermath.Proofs.Delivery
import Aftermath.Proofs.Hushed
import Aftermath.Proofs.Latest
import Aftermath.Proofs.Order
import Aftermath.Proofs.Turn.Origin

/-! The right handler runs, and in a quiet session. What is told of an outcome is told by the handler
that the deciding subscription has when the session takes notice, or by the hook that stands in for it;
by then nothing of the session is active any more, and nobody else is told anything. -/

namespace Aftermath

/-- What a single subscription has come to; at most one hook is told of it. -/
def Argument.isSole : Argument → Bool
  | .event _ | .timeout _ => true
  | _ => false

namespace Hub

section
variable {h h' : Hub} {sid : SessionId} {m : Move} {k : HookId} {ks all : List HookId}
variable {arg : Argument} {e : Ending} {x y : View} {hs : Hooks} {b o : List Beat}

theorem Path.length_le (hp : Path h sid hs o all arg) (ha : arg.isSole) : all.length ≤ 1 := by
  cases hp with
  | event | timeout => rw [Option.length_toList]; split <;> decide
  | silent | server | network => cases ha

/-- All that is told of a session is told of one outcome. -/
theorem CutShort.told_prefix (hc : CutShort h sid hs b) :
    ∃ (all : List HookId) (arg : Argument),
      told b <+: all.map (·, arg) ∧ (arg.isSole → all.length ≤ 1) := by
  obtain ⟨all, w, ⟨o, arg, ho, hp, rfl⟩, hb⟩ := hc
  refine ⟨all, arg, ?_, hp.length_le⟩
  have hw : told b <+: told (o ++ played all arg) := hb.filterMap Beat.told?
  rw [told_append, ho.told, List.nil_append] at hw
  by_cases ha : arg = .nothing
  · rw [ha, told_played_nothing] at hw
    rw [List.prefix_nil.1 hw]
    exact List.nil_prefix
  · rwa [told_played ha] at hw

/-- What one hook has been told, all are told; and an outcome of one subscription only that hook. -/
theorem CutShort.told_alone (hc : CutShort h sid hs b) (hk : (k, arg) ∈ told b) :
    (∀ p ∈ told b, p.2 = arg) ∧ (arg.isSole → told b = [(k, arg)]) := by
  obtain ⟨all, a, hp, hlen⟩ := hc.told_prefix
  have heq : ∀ p ∈ told b, p.2 = a := fun p hp' => by
    obtain ⟨l, -, rfl⟩ := List.mem_map.1 (hp.subset hp')
    rfl
  obtain rfl : arg = a := heq _ hk
  refine ⟨heq, fun ha => ?_⟩
  have hle : (told b).length ≤ 1 := by
    have := hp.length_le
    rw [List.length_map] at this
    exact Nat.le_trans this (hlen ha)
  obtain ⟨p, hb⟩ := List.length_eq_one_iff.1 (Nat.le_antisymm hle (List.length_pos_of_mem hk))
  rw [hb] at hk ⊢
  rw [List.mem_singleton.1 hk]

/-! ### The choice of the handler -/

/-- The handler that is about to begin is the one of the subscription that has decided the session, or
stands in for it. -/
inductive Chosen (h : Hub) (sid : SessionId) (k : HookId) : Argument → Prop where
  | event {s : SubId} {e : Envelope} : (h.session sid).claim = some (.fired s e) →
      (h.sub s).handler.or ((h.session sid).hooks.forKind (h.sub s).kind) = some k →
      Chosen h sid k (.event e)
  | timeout {s : SubId} : (h.session sid).claim = some (.timedOut s) →
      (h.sub s).timeoutHandler.or (h.session sid).hooks.anyTimeout = some k →
      Chosen h sid k (.timeout (h.sub s).key)

/-- Finding the handler of a member changes neither the stack nor the subscriptions. -/
theorem resolve_stays {r : Report} {s : SubId} (hr : (∃ e, r = .fired s e) ∨ r = .timedOut s)
    (hin : s ∈ (h.session sid).members) :
    (h.resolve sid r).stack = h.stack ∧ (h.resolve sid r).subs = h.subs := by
  rcases hr with ⟨e, rfl⟩ | rfl <;>
    (unfold resolve; dsimp only; rw [if_pos (by simpa using hin)]; exact ⟨rfl, rfl⟩)

/-- The handler of a session that has just been found is the right one, and it begins next. -/
theorem Handles.chosen (ha : Reachable h) (hv : h.move? m = some h')
    (hp : (h'.session sid).phase = .handling (k :: ks) arg e)
    (hh : Handles h sid (h.session sid) (k :: ks) arg e) (hs : arg.isSole) :
    (∃ rest, h'.stack = .driving sid :: rest) ∧ Chosen h' sid k arg := by
  have hm := moved_of_move? hv
  have hj := ha.judged sid
  unfold Judged at hj
  -- it was found by a step of the session itself, which changes nothing else
  have found : ∀ {r s}, (h.session sid).phase = .resolving r →
      (∃ e, r = .fired s e) ∨ r = .timedOut s → s ∈ (h.session sid).members →
      (∃ rest, h'.stack = .driving sid :: rest) ∧ (h'.session sid).claim = r.claim? ∧
        (h'.session sid).hooks = (h.session sid).hooks ∧ h'.sub s = h.sub s := by
    intro r s hr hrs hin
    simp only [hr] at hj
    obtain ⟨hth, hn⟩ := (hr ▸ ha.fits sid).of_passing rfl rfl nofun
    obtain ⟨c, hc⟩ := Option.isSome_iff_exists.1 hj.1
    have hclaim : (h'.session sid).claim = r.claim? :=
      (claim_move ha hm (hj.2.trans hc)).trans hc.symm
    have hhooks : (h'.session sid).hooks = (h.session sid).hooks :=
      hooks_move ha hm fun hq => nomatch hr.symm.trans hq
    rcases stance_or_advances ha hm (hth ▸ List.mem_cons_self) with hst | hadv
    · exact absurd ((hr.symm.trans (congrArg Prod.fst hst).symm).trans hp) nofun
    · cases hadv with
      | drive hst =>
        have hb : h.drive sid = h.resolve sid r := by simp only [drive, hn, hr]
        obtain ⟨hst', hsubs⟩ := resolve_stays (h := h) hrs hin
        exact ⟨⟨_, by rw [hb, hst', hst]⟩, hclaim, hhooks, by rw [hb]; exact sub_eq hsubs s⟩
      | hook hst | post hst =>
        rw [thread_of_stack hst rfl] at hth
        cases hth
  have hlist : ∀ {o : Option HookId}, k :: ks = o.toList → o = some k := fun {o} ho => by
    cases o with
    | none => cases ho
    | some l => cases ho; rfl
  generalize hl : k :: ks = l at hh
  cases hh with
  | @fired s a hr hin =>
    obtain ⟨hst, hc, hk, hsub⟩ := found hr (.inl ⟨a, rfl⟩) hin
    exact ⟨hst, .event hc (by rw [hk, hsub]; exact hlist hl)⟩
  | @timedOut s hr hin =>
    obtain ⟨hst, hc, hk, hsub⟩ := found hr (.inr rfl) hin
    rw [← hsub]
    exact ⟨hst, .timeout hc (by rw [hk, hsub]; exact hlist hl)⟩
  | @failure p _ _ _ hf _ => cases p <;> cases hf <;> cases hs

/-- When it is the turn of the handler of one subscription, nobody has been told before. -/
theorem Heard.told_before {z : Session} (hb : Heard h sid z b (.handling (k :: ks) arg e))
    (hr : z.running = none) (hs : arg.isSole) : told b = [] := by
  obtain ⟨o, all, ho, hp, hplay⟩ := hb
  have hlen := hp.length_le hs
  rw [hr] at hplay
  cases hplay with
  | @rests done _ he =>
    rw [he, List.length_append, List.length_cons] at hlen
    have hdone : done = [] := List.length_eq_zero_iff.1 (by omega)
    rw [hdone, told_append, ho.told]; rfl

/-- A step of a session that runs its handlers begins one or is the last. -/
theorem drive_handling (hi : sid < h.sessions.length) (hn : (h.session sid).running = none)
    (hq : (h.session sid).phase = .handling ks arg e) :
    ((h.drive sid).session sid).running ≠ none ∨ ((h.drive sid).session sid).phase = .closing e := by
  cases ks with
  | nil =>
    have hv := view_conclude hi sid e
    rw [if_pos rfl] at hv
    simp only [drive, hn, hq]
    exact .inr (congrArg (fun v : View => v.self.phase) hv)
  | cons k ks =>
    have hv := view_begin (h := h.setPhase sid (.handling ks arg e)) (i := sid)
      (by simpa [setPhase] using hi) k arg
    simp only [drive, hn, hq]
    refine .inl ?_
    rw [show ((Hub.begin _ sid k arg).session sid).running = _ from
      congrArg (fun v : View => v.self.running) hv]
    exact Option.some_ne_none _

/-- A session that is about to begin the handler of one subscription has found the right one. -/
theorem Reachable.chosen (hr : Reachable h) (hp : (h.session sid).phase = .handling (k :: ks) arg e)
    (hn : (h.session sid).running = none) (hs : arg.isSole) :
    (∃ rest, h.stack = .driving sid :: rest) ∧ Chosen h sid k arg := by
  induction hr using Reachable.induct generalizing k ks with
  | init settings => cases hp
  | move a b m ha hv ih =>
    have hm := moved_of_move? hv
    have hb := (ha.later (Later.refl.move hv)).heard sid
    rw [hp] at hb
    have hnone := hb.told_before hn hs
    rcases (move_turn ha.wired hm sid).handling_cases hp with ⟨l, hq⟩ | hh
    · have hq : (a.session sid).phase = .handling l arg e := hq
      have hheard := ha.heard sid
      rw [hq] at hheard
      cases hra : (a.session sid).running with
      | some q =>
        -- a handler that was running has been told of the outcome
        have hsub : told (a.beats sid) <+: told (b.beats sid) :=
          (beats_move ha hm sid).filterMap Beat.told?
        rw [hnone, List.prefix_nil] at hsub
        exact absurd hsub (hheard.told_running (by rw [hra]; rfl))
      | none =>
        have hf := ha.fits sid
        rw [hra] at hf
        have hth := hf.of_acting (by rw [hq]; rfl)
        have hi : sid < a.sessions.length := lt_of_not_still (show (a.session sid).phase.isStill = _ by
          rw [hq]; rfl)
        -- so one that is not running yet begins in the next step
        have begins : b ≠ a.drive sid := by
          rintro rfl
          rcases drive_handling hi hra hq with hne | hcl
          · exact hne hn
          · exact nomatch hcl.symm.trans hp
        rcases stance_or_advances ha hm (hth ▸ List.mem_cons_self) with hst | hadv
        · obtain ⟨⟨rest, htop⟩, -⟩ := ih ((congrArg Prod.fst hst).symm.trans hp) hra
          exact absurd (step_of_driving htop hv).2 begins
        · cases hadv with
          | drive hst => exact absurd rfl begins
          | hook hst | post hst =>
            rw [thread_of_stack hst rfl] at hth
            cases hth
    · exact hh.chosen ha hv hp hs

/-! ### The handler begins -/

/-- A hook begins with a step of its session, which has nothing else under way. -/
theorem Turn.beginning (ht : Turn h h' sid x y) (hb : y.beats = x.beats ++ [.begins k arg]) :
    x.self.running = none ∧ .driving sid ∈ x.thread ∧ y.self.running = some (k, arg) ∧
      ∃ q, x.self.phase.next? = some (k, arg, q) := by
  have same : ∀ b : List Beat, b ≠ b ++ [.begins k arg] := fun b hb => by
    simpa using congrArg List.length hb
  have other : ∀ (b : List Beat) {c}, c ≠ .begins k arg → b ++ [c] ≠ b ++ [.begins k arg] :=
    fun b c hc he => hc (by simpa using he)
  cases ht
  case ends | acknowledged | refused | unheard | belated => exact absurd hb (other _ nofun)
  case drives hr hd =>
    cases hd
    case begins hn =>
      obtain ⟨rfl, rfl⟩ : _ = k ∧ _ = arg := by simpa using hb
      exact ⟨hr, List.mem_cons_self, rfl, _, hn⟩
    case posts => exact absurd hb (other _ nofun)
    all_goals exact absurd hb (same _)
  all_goals exact absurd hb (same _)

/-- A handler begins when the session that runs it is on top of the stack. -/
theorem handling_of_begins (ha : Reachable h) (hm : Moved h m h')
    (hb : h'.beats sid = h.beats sid ++ [.begins k arg]) (hne : arg ≠ .nothing) :
    (h.session sid).running = none ∧ (∃ rest, h.stack = .driving sid :: rest) ∧
      ∃ ks e, (h.session sid).phase = .handling (k :: ks) arg e := by
  obtain ⟨hr, hd, hr', q, hq⟩ := (move_turn ha.wired hm sid).beginning hb
  have hr : (h.session sid).running = none := hr
  refine ⟨hr, ?_, ?_⟩
  · have hf := ha.fits sid
    rw [hr] at hf
    rcases stance_or_advances ha hm hd with hst | hadv
    · exact nomatch (hr'.symm.trans (congrArg Prod.snd hst)).trans hr
    · cases hadv with
      | drive hst => exact ⟨_, hst⟩
      | hook hst => exact nomatch (thread_of_stack hst rfl ▸ hf).of_hook.2.2
      | post hst =>
        rw [show (h.view sid).self.phase = .posting from
          (thread_of_stack hst rfl ▸ hf).of_posting.2.1] at hq
        cases hq
  · unfold Phase.next? at hq
    split at hq
    · cases hq; exact absurd rfl hne
    · cases hq; exact absurd rfl hne
    · next hp => cases hq; exact ⟨_, _, hp⟩
    · cases hq

variable {settings : Settings} {ms : List Move}

/-- The right handler runs in a quiet session. When a handler begins that is told of an outcome,
nothing of the session is active and everything was given back to the transport. Of an event that was
delivered, and of a countdown that ran out, the handler is told that its subscription was given last, or
the one that was registered last to stand in for it; and nobody else is ever told of anything. -/
theorem right_handler_runs (hrun : run? { settings } ms = some h) (hm : h.move? m = some h')
    (hb : h'.beats sid = h.beats sid ++ [.begins k arg]) (hne : arg ≠ .nothing) :
    (∀ s ∈ (h'.session sid).members, Deaf h' s) ∧
    (∀ e, arg = .event e → ∃ s, (h'.session sid).claim = some (.fired s e) ∧ .deliver s e ∈ ms ∧
      e.key = (h'.sub s).key ∧
      some k = (lastHandler settings ms s).or (lastRegistered settings ms sid (h'.sub s).kind.slot)) ∧
    (∀ key, arg = .timeout key → ∃ s, (h'.session sid).claim = some (.timedOut s) ∧
      key = (h'.sub s).key ∧
      some k = (lastTimeoutHandler settings ms s).or (lastRegistered settings ms sid .anyTimeout)) ∧
    ∀ j, Later h' j → (∀ p ∈ told (j.beats sid), p.2 = arg) ∧
      (arg.isSole → told (j.beats sid) = [(k, arg)]) := by
  have hr : Reachable h := ⟨settings, .of_run? hrun⟩
  have hl : Later h h' := Later.refl.move hm
  have hmoved := moved_of_move? hm
  obtain ⟨hn, ⟨rest, hst⟩, ks, e, hp⟩ := handling_of_begins hr hmoved hb hne
  have hr' := hr.later hl
  refine ⟨fun s hs => ?_, fun e he => ?_, fun key he => ?_, fun j hj => ?_⟩
  · have hspent := (hr.hushed hst (by rw [hp]; rfl)).later hr hl
    exact hr'.deaf (hspent.inactive s hs)
  · subst he
    cases (hr.chosen hp hn rfl).2 with
    | @event s _ hc hk =>
      obtain ⟨hin, -, hkey⟩ := (hr.backed sid).fired s e hc
      obtain ⟨-, fk, fkind⟩ := sub_fixed hr.wired hmoved (hr.wired.members sid s hin)
      refine ⟨s, claim_move hr hmoved hc, deliver_mem_of_claim hrun hc, hkey.trans fk.symm, ?_⟩
      rw [fkind, ← handler_eq_last hrun, ← standIn_eq_last hrun sid (Kind.isSingle_slot _),
        Hooks.standIn_slot, hk]
  · subst he
    generalize ha : Argument.timeout key = arg at hp
    cases (hr.chosen hp hn (ha ▸ rfl)).2 with
    | event => cases ha
    | @timeout s hc hk =>
      cases ha
      obtain ⟨hin, -⟩ := (hr.backed sid).timedOut s hc
      obtain ⟨-, fk, -⟩ := sub_fixed hr.wired hmoved (hr.wired.members sid s hin)
      refine ⟨s, claim_move hr hmoved hc, fk.symm, ?_⟩
      rw [← timeoutHandler_eq_last hrun, ← standIn_eq_last hrun sid rfl]
      exact hk.symm
  · have htold : (k, arg) ∈ told (j.beats sid) := by
      refine mem_told.2 ⟨(hr'.beats_last hj sid).subset ?_, hne⟩
      rw [hb]
      exact List.mem_append_right _ List.mem_cons_self
    exact ((hr'.later hj).heard sid).cut_short.told_alone htold

end
/-- A session waits for an event, and its subscription is given two handlers, the second of which is to
replace the first; then the event arrives, and the handler is about to begin. -/
def handlerReplaced : List Move :=
  oneWaits 0 .event ++ [.handleWith 0 1, .handleWith 0 2, .deliver 0 ⟨default, .blank⟩, .unsubscribed,
    .step, .run 0, .step, .step, .step, .step, .step]

theorem replaced_handler_runs : ∃ h h', Reachable h ∧ h.move? .step = some h' ∧
    h'.beats 0 = h.beats 0 ++ [.begins 2 (.event ⟨default, .blank⟩)] ∧
    (∀ s ∈ (h'.session 0).members, Deaf h' s) ∧
    (∃ s, (h'.session 0).claim = some (.fired s ⟨default, .blank⟩) ∧
      some 2 = (lastHandler {} handlerReplaced s).or
        (lastRegistered {} handlerReplaced 0 (h'.sub s).kind.slot)) ∧
    ∀ j, Later h' j → told (j.beats 0) = [(2, .event ⟨default, .blank⟩)] := by
  have hany : (run? { settings := {} } handlerReplaced).any fun h => (h.move? .step).any fun h' =>
      h'.beats 0 = h.beats 0 ++ [.begins 2 (.event ⟨default, .blank⟩)] := by decide
  obtain ⟨h, hrun, hany⟩ := exists_of_any hany
  obtain ⟨h', hm, hb⟩ := exists_of_any hany
  have hb := of_decide_eq_true hb
  obtain ⟨hquiet, hevent, -, hlater⟩ := right_handler_runs hrun hm hb nofun
  obtain ⟨s, hc, -, -, hk⟩ := hevent _ rfl
  exact ⟨h, h', ⟨{}, .of_run? hrun⟩, hm, hb, hquiet, ⟨s, hc, hk⟩, fun j hj => (hlater j hj).2 rfl⟩

end Hub
end Aftermath
