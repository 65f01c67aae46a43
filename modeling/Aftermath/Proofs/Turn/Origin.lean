import Aftermath.Proofs.Verdict

/-! Where a session has come from. What is new in a session after a turn, a phase or a beat, tells what
the session was like before. -/

namespace Aftermath.Hub

section
variable {h h' : Hub} {sid : SessionId} {x y : View} {e : Ending} {p : PostError} {k : HookId}
variable {arg : Argument} {ks : List HookId}

/-- An ending was certain before, or the session has just closed by a step of its own, or a hook has
just failed; it is decided by that. -/
theorem Turn.ending_cases (ht : Turn h h' sid x y)
    (hy : y.self.phase = .closing e ∨ y.self.phase = .ended e) :
    (x.self.phase = .closing e ∨ x.self.phase = .ended e) ∨
      y.self.isSettled ∧ (Closes h sid x.self e ∧ x.self.running = none ∧
        .driving sid ∈ x.thread ∧ y.beats = x.beats ∨ e.isBroken) := by
  cases ht
  case opens | prepares | configured | aborts | drops | acknowledged | refused | unheard | belated =>
    rcases hy with hy | hy <;> cases hy
  case enters =>
    dsimp only at hy
    split at hy
    · rcases hy with hy | hy <;> cases hy
    · exact .inl hy
  case forgets =>
    dsimp only at hy
    split at hy <;> rcases hy with hy | hy <;> cases hy
  case breaks he _ =>
    rcases hy with hy | hy <;> cases hy
    rcases he with ⟨m, rfl⟩ | ⟨m, rfl⟩ <;> exact .inr ⟨Session.isSettled_settled _ _, .inr rfl⟩
  case drives hr hd =>
    cases hd
    case begins hn =>
      unfold Phase.next? at hn
      split at hn <;> cases hn <;> rcases hy with hy | hy <;> cases hy
    case closes hc _ =>
      rcases hy with hy | hy <;> cases hy
      exact .inr ⟨Session.isSettled_settled _ _, .inl ⟨hc, hr, List.mem_cons_self, rfl⟩⟩
    case leaves hq =>
      rcases hy with hy | hy <;> cases hy
      exact .inl (.inl hq)
    case resumes | waits | dismisses | stops => exact .inl hy
    all_goals rcases hy with hy | hy <;> cases hy
  all_goals exact .inl hy

/-- A session that is over was so before, or it has just left, or it has been given up. -/
theorem Turn.over_cases (ht : Turn h h' sid x y) (hy : y.self.phase.isOver) :
    x.self.phase = y.self.phase ∨ (∃ e, x.self.phase = .closing e ∧ y.self.phase = .ended e) ∨
      y.self.phase = .dropped ∨ x.self.phase = .unopened ∧ y.self.phase = .forgone := by
  cases ht
  case opens | prepares | configured | aborts | drops | breaks | acknowledged | refused | unheard |
      belated => cases hy
  case enters =>
    dsimp only at hy ⊢
    split at hy
    · cases hy
    · next hp => rw [if_neg hp]; exact .inl rfl
  case forgets =>
    dsimp only
    split
    · next hu => exact .inr (.inr (.inr ⟨hu, rfl⟩))
    · exact .inr (.inr (.inl rfl))
  case drives hd =>
    cases hd
    case begins hn =>
      unfold Phase.next? at hn
      split at hn <;> cases hn <;> cases hy
    case leaves hp => exact .inr (.inl ⟨_, hp, rfl⟩)
    case vanishes => exact .inr (.inr (.inl rfl))
    case resumes | waits | dismisses | stops => exact .inl rfl
    all_goals cases hy
  all_goals exact .inl rfl

/-- A session that has ended had its ending before. -/
theorem Turn.ended_cases (ht : Turn h h' sid x y) (hy : y.self.phase = .ended e) :
    x.self.phase = .ended e ∨ x.self.phase = .closing e := by
  rcases ht.over_cases (by rw [hy]; rfl) with hx | ⟨e', hx, he⟩ | hd | ⟨-, hf⟩
  · exact .inl (hx.trans hy)
  · cases hy.symm.trans he
    exact .inr hx
  · cases hy.symm.trans hd
  · cases hy.symm.trans hf

/-- A session that was given up before anything happened was so before, or nothing has happened. -/
theorem Turn.forgone_cases (ht : Turn h h' sid x y) (hy : y.self.phase = .forgone) :
    x.self.phase = .forgone ∨ x.self.phase = .unopened := by
  rcases ht.over_cases (by rw [hy]; rfl) with hx | ⟨e, -, he⟩ | hd | ⟨hx, -⟩
  · exact .inl (hx.trans hy)
  · cases hy.symm.trans he
  · cases hy.symm.trans hd
  · exact .inr hx

/-- A session that is being given up was so before, or was under way. -/
theorem Turn.dropping_cases (ht : Turn h h' sid x y) (hy : y.self.phase = .dropping) :
    x.self.phase = .dropping ∨ x.self.isUnderWay := by
  cases ht
  case opens | prepares | configured | aborts | breaks | acknowledged | refused | unheard |
      belated => cases hy
  case drops hu _ => exact .inr hu
  case enters | forgets =>
    dsimp only at hy
    split at hy
    · cases hy
    · first | exact .inl hy | cases hy
  case drives hd =>
    cases hd
    case begins hn =>
      unfold Phase.next? at hn
      split at hn <;> cases hn <;> cases hy
    case resumes | waits | dismisses | stops => exact .inl hy
    all_goals cases hy
  all_goals exact .inl hy

/-- A session that has been given up was so before, or was being given up, or was waiting for its
first run. -/
theorem Turn.dropped_cases (ht : Turn h h' sid x y)
    (hf : Fits sid x.self.phase x.self.running x.thread) (hy : y.self.phase = .dropped) :
    x.self.phase = .dropped ∨ x.self.phase = .dropping ∨ x.self.phase = .prepared := by
  cases ht
  case opens | prepares | configured | aborts | drops | breaks | acknowledged | refused | unheard |
      belated => cases hy
  case enters =>
    dsimp only at hy
    split at hy
    · cases hy
    · exact .inl hy
  case forgets ht ho hu =>
    refine .inr (.inr ?_)
    dsimp only at hy
    split at hy
    · cases hy
    · next hn => exact (hf.of_forgotten ht ho hu).resolve_left hn
  case drives hd =>
    cases hd
    case begins hn =>
      unfold Phase.next? at hn
      split at hn <;> cases hn <;> cases hy
    case vanishes hp => exact .inr (.inl hp)
    case resumes | waits | dismisses | stops => exact .inl hy
    all_goals cases hy
  all_goals exact .inl hy

/-- A post that failed after the decision, with no hook to hear of it, was under way. -/
theorem Turn.unheard_cases (ht : Turn h h' sid x y)
    (hf : Fits sid x.self.phase x.self.running x.thread) (hy : y.self.phase = .unheard p) :
    x.self.phase = .unheard p ∨ x.self.phase = .posting ∧ .driving sid ∈ x.thread := by
  cases ht
  case opens | prepares | configured | aborts | drops | breaks | acknowledged | refused | belated =>
    cases hy
  case enters =>
    dsimp only at hy
    split at hy
    · cases hy
    · exact .inl hy
  case forgets =>
    dsimp only at hy
    split at hy <;> cases hy
  case unheard =>
    obtain ⟨rfl, hq, -⟩ := hf.of_posting
    exact .inr ⟨hq, by simp⟩
  case drives hd =>
    cases hd
    case begins hn =>
      unfold Phase.next? at hn
      split at hn <;> cases hn <;> cases hy
    case resumes | waits | dismisses | stops => exact .inl hy
    all_goals cases hy
  all_goals exact .inl hy

/-- A session that runs its post did so before, unless it could start or resume it. -/
theorem Turn.posting_cases (ht : Turn h h' sid x y) (hy : y.self.phase = .posting)
    (hth : .driving sid ∈ y.thread) :
    x.self.phase = .posting ∧ .driving sid ∈ x.thread ∨ x.self.claim = none ∨
      x.self.cancelled = false := by
  cases ht
  case opens | prepares | configured | aborts | drops | breaks | acknowledged | refused | unheard |
      belated => cases hy
  case enters hc => exact .inr (.inr hc)
  case forgets =>
    dsimp only at hy
    split at hy <;> cases hy
  case runs =>
    rcases List.mem_cons.1 hth with hth | hth
    · cases hth
    · exact .inl ⟨hy, hth⟩
  case rehooks => exact .inl ⟨hy, List.mem_cons_self⟩
  case ends => exact .inl ⟨hy, List.mem_cons_of_mem _ hth⟩
  case pauses => exact .inl ⟨hy, by simp⟩
  case drives hd =>
    cases hd
    case begins hn =>
      unfold Phase.next? at hn
      split at hn <;> cases hn <;> cases hy
    case posts hc => exact .inr (.inl hc)
    case resumes hq => exact .inl ⟨hq, List.mem_cons_self⟩
    case waits hq _ => exact absurd (hq.symm.trans hy) nofun
    case dismisses | stops => exact .inl ⟨hy, List.mem_cons_self⟩
    all_goals cases hy
  all_goals exact .inl ⟨hy, hth⟩

/-- A session that runs its acknowledge hooks ran them or its post before, unless it could resume
them. -/
theorem Turn.acknowledging_cases (ht : Turn h h' sid x y)
    (hf : Fits sid x.self.phase x.self.running x.thread) (hy : y.self.phase = .acknowledging ks)
    (hth : .driving sid ∈ y.thread) :
    (x.self.phase = .posting ∨ ∃ l, x.self.phase = .acknowledging l) ∧ .driving sid ∈ x.thread ∨
      x.self.cancelled = false := by
  cases ht
  case opens | prepares | configured | aborts | drops | breaks | refused | unheard | belated => cases hy
  case enters hc => exact .inr hc
  case forgets =>
    dsimp only at hy
    split at hy <;> cases hy
  case acknowledged =>
    obtain ⟨rfl, hq, -⟩ := hf.of_posting
    exact .inl ⟨.inl hq, by simp⟩
  case runs =>
    rcases List.mem_cons.1 hth with hth | hth
    · cases hth
    · exact .inl ⟨.inr ⟨_, hy⟩, hth⟩
  case rehooks => exact .inl ⟨.inr ⟨_, hy⟩, List.mem_cons_self⟩
  case ends => exact .inl ⟨.inr ⟨_, hy⟩, List.mem_cons_of_mem _ hth⟩
  case pauses => exact .inl ⟨.inr ⟨_, hy⟩, by simp⟩
  case drives hd =>
    cases hd
    case begins hn =>
      unfold Phase.next? at hn
      split at hn <;> cases hn <;> cases hy
      next hq => exact .inl ⟨.inr ⟨_, hq⟩, List.mem_cons_self⟩
    case resumes hq => exact .inl ⟨.inl hq, List.mem_cons_self⟩
    case waits hq _ => exact absurd (hq.symm.trans hy) nofun
    case dismisses | stops => exact .inl ⟨.inr ⟨_, hy⟩, List.mem_cons_self⟩
    all_goals cases hy
  all_goals exact .inl ⟨.inr ⟨_, hy⟩, hth⟩

/-- Handlers that run were running before or have just been found. -/
theorem Turn.handling_cases (ht : Turn h h' sid x y) (hy : y.self.phase = .handling ks arg e) :
    (∃ l, x.self.phase = .handling l arg e) ∨ Handles h sid x.self ks arg e := by
  cases ht
  case opens | prepares | configured | aborts | drops | breaks | acknowledged | refused | unheard |
      belated => cases hy
  case enters =>
    dsimp only at hy
    split at hy
    · cases hy
    · exact .inl ⟨_, hy⟩
  case forgets =>
    dsimp only at hy
    split at hy <;> cases hy
  case drives hd =>
    cases hd
    case begins hn =>
      unfold Phase.next? at hn
      split at hn <;> cases hn <;> cases hy
      next hq => exact .inl ⟨_, hq⟩
    case handles hh => cases hy; exact .inr hh
    case resumes | waits | dismisses | stops => exact .inl ⟨_, hy⟩
    all_goals cases hy
  all_goals exact .inl ⟨_, hy⟩

/-- What handlers run for was found once. -/
theorem Reachable.found_of_handling (hr : Reachable h) (hp : (h.session sid).phase = .handling ks arg e) :
    ∃ (g : Hub) (z : Session) (l : List HookId), Handles g sid z l arg e := by
  induction hr using Reachable.induct generalizing ks with
  | init settings => cases hp
  | move a b m ha hm ih =>
    rcases (move_turn ha.wired (moved_of_move? hm) sid).handling_cases hp with ⟨l, hp⟩ | hh
    · exact ih hp
    · exact ⟨a, _, _, hh⟩

/-- A session that has found that it is not ready was so before, or it has just looked. -/
theorem Turn.unready_cases (ht : Turn h h' sid x y) (hy : y.self.phase = .unready) :
    x.self.phase = .unready ∨
      x.self.phase = .checking ∧ x.self.claim = none ∧ h.allActive sid = false := by
  cases ht
  case opens | prepares | configured | aborts | drops | breaks | acknowledged | refused | unheard |
      belated => cases hy
  case enters | forgets =>
    dsimp only at hy
    split at hy
    · cases hy
    · first | exact .inl hy | cases hy
  case drives hd =>
    cases hd
    case fails ha hp hn => exact .inr ⟨hp, hn, ha⟩
    case begins hn =>
      unfold Phase.next? at hn
      split at hn <;> cases hn <;> cases hy
    case resumes | waits | dismisses | stops => exact .inl hy
    all_goals cases hy
  all_goals exact .inl hy

/-- A session that has found all its subscriptions cancelled was so before, or it has just looked. -/
theorem Turn.deserted_cases (ht : Turn h h' sid x y) (hy : y.self.phase = .deserted) :
    x.self.phase = .deserted ∨
      x.self.phase = .awaiting ∧ x.self.claim = none ∧ h.allCancelled sid := by
  cases ht
  case opens | prepares | configured | aborts | drops | breaks | acknowledged | refused | unheard |
      belated => cases hy
  case enters | forgets =>
    dsimp only at hy
    split at hy
    · cases hy
    · first | exact .inl hy | cases hy
  case drives hd =>
    cases hd
    case deserted ha hp _ hn => exact .inr ⟨hp, hn, ha⟩
    case begins hn =>
      unfold Phase.next? at hn
      split at hn <;> cases hn <;> cases hy
    case resumes | waits | dismisses | stops => exact .inl hy
    all_goals cases hy
  all_goals exact .inl hy

/-- A session that gives up what it was doing did so before, or was cancelled when its run began. -/
theorem Turn.cancelling_cases (ht : Turn h h' sid x y) (hy : y.self.phase = .cancelling) :
    x.self.phase = .cancelling ∨ x.self.cancelled ∧ ∃ t, x.thread = .entering sid :: t := by
  cases ht
  case opens | prepares | configured | drops | breaks | acknowledged | refused | unheard |
      belated => cases hy
  case aborts hc => exact .inr ⟨hc, _, rfl⟩
  case enters | forgets =>
    dsimp only at hy
    split at hy
    · cases hy
    · first | exact .inl hy | cases hy
  case drives hd =>
    cases hd
    case begins hn =>
      unfold Phase.next? at hn
      split at hn <;> cases hn <;> cases hy
    case resumes | waits | dismisses | stops => exact .inl hy
    all_goals cases hy
  all_goals exact .inl hy

/-- A session that looks did so before, or has just entered. -/
theorem Turn.checking_cases (ht : Turn h h' sid x y) (hy : y.self.phase = .checking) :
    x.self.phase = .checking ∨ x.self.phase = .prepared ∧ x.self.cancelled = false ∧
      ∃ t, x.thread = .entering sid :: t := by
  cases ht
  case opens | prepares | configured | aborts | drops | breaks | acknowledged | refused | unheard |
      belated => cases hy
  case enters hc =>
    dsimp only at hy
    split at hy
    · next hp => exact .inr ⟨hp, hc, _, rfl⟩
    · exact .inl hy
  case forgets =>
    dsimp only at hy
    split at hy <;> cases hy
  case drives hd =>
    cases hd
    case begins hn =>
      unfold Phase.next? at hn
      split at hn <;> cases hn <;> cases hy
    case resumes | waits | dismisses | stops => exact .inl hy
    all_goals cases hy
  all_goals exact .inl hy

/-- A hook begins only when it is the next one. -/
theorem Turn.begins_cases (ht : Turn h h' sid x y) (hy : .begins k arg ∈ y.beats) :
    .begins k arg ∈ x.beats ∨ ∃ q, x.self.phase.next? = some (k, arg, q) := by
  cases ht
  case ends | acknowledged | refused | unheard | belated =>
    exact .inl ((List.mem_append.1 hy).resolve_right (by simp))
  case drives hd =>
    cases hd
    case begins hn =>
      refine (List.mem_append.1 hy).imp id fun hb => ?_
      cases List.mem_singleton.1 hb
      exact ⟨_, hn⟩
    case posts => exact .inl ((List.mem_append.1 hy).resolve_right (by simp))
    all_goals exact .inl hy
  all_goals exact .inl hy

/-- Only an undecided session posts its command. -/
theorem Turn.posts_cases (ht : Turn h h' sid x y) (hy : .posts ∈ y.beats) :
    .posts ∈ x.beats ∨ x.self.claim = none := by
  cases ht
  case ends | acknowledged | refused | unheard | belated =>
    exact .inl ((List.mem_append.1 hy).resolve_right (by simp))
  case drives hd =>
    cases hd
    case begins => exact .inl ((List.mem_append.1 hy).resolve_right (by simp))
    case posts hc => exact .inr hc
    all_goals exact .inl hy
  all_goals exact .inl hy

/-- When the last that is heard of a session is the end of a hook or the acknowledgement of its post, it
was heard before, or just now of the hook or the post that lay on the session. -/
theorem Turn.answered_cases (ht : Turn h h' sid x y)
    (hf : Fits sid x.self.phase x.self.running x.thread) {l : List Beat} {c : Beat}
    (hy : y.beats = l ++ [c]) (hc : c = .acknowledged ∨ ∃ k, c = .ends k) :
    y.beats = x.beats ∨ y.self.running = none ∧ (∃ f, x.thread = [f, .driving sid]) ∧
      (x.self.running.isSome ∧ x.self.phase.isHooking ∧ y.self.phase = x.self.phase ∨
        x.self.phase = .posting ∧ y.self.phase = .acknowledging y.self.hooks.acknowledge) := by
  have other : ∀ {b : List Beat} {d : Beat}, b ++ [d] = l ++ [c] → d ≠ .acknowledged →
      (∀ k, d ≠ .ends k) → False := fun he hn hk => by
    obtain rfl := (List.append_inj' he rfl).2 |> List.singleton_inj.1
    exact hc.elim hn fun ⟨k, he⟩ => hk k he
  cases ht
  case ends =>
    obtain ⟨rfl, hp, hr⟩ := hf.of_hook
    exact .inr ⟨rfl, ⟨_, rfl⟩, .inl ⟨by rw [hr]; rfl, hp, rfl⟩⟩
  case acknowledged =>
    obtain ⟨rfl, hp, hr⟩ := hf.of_posting
    exact .inr ⟨hr, ⟨_, rfl⟩, .inr ⟨hp, rfl⟩⟩
  case refused | unheard | belated => exact (other hy nofun nofun).elim
  case drives hd =>
    cases hd
    case begins | posts => exact (other hy nofun nofun).elim
    all_goals exact .inl rfl
  all_goals exact .inl rfl

/-! ### States on the way -/

/-- The hub has passed a state in which something holds. -/
def Once (h : Hub) (P : Hub → Prop) : Prop := ∃ a, Reachable a ∧ P a ∧ Later a h

variable {P : Hub → Prop}

theorem Once.later (hp : h.Once P) (hl : Later h h') : h'.Once P := by
  obtain ⟨a, ha, hp, hla⟩ := hp
  exact ⟨a, ha, hp, hla.trans hl⟩

theorem Once.now (hr : Reachable h) (hp : P h) : h.Once P := ⟨h, hr, hp, .refl⟩

/-- What is known of the turn that leads into a phase was so when the session came into it. -/
theorem Reachable.once {q : Phase} (hq : q ≠ .unopened)
    (turn : ∀ {a b : Hub}, Reachable a → Turn a b sid (a.view sid) (b.view sid) →
      (b.session sid).phase = q → (a.session sid).phase = q ∨ P a)
    (hr : Reachable h) (hp : (h.session sid).phase = q) : h.Once P := by
  induction hr using Reachable.induct with
  | init settings => exact absurd hp.symm hq
  | move a b m ha hm ih =>
    have hl := Later.refl.move hm
    rcases turn ha (move_turn ha.wired (moved_of_move? hm) sid) hp with hp | hp
    · exact (ih hp).later hl
    · exact (Once.now ha hp).later hl

end
end Aftermath.Hub
