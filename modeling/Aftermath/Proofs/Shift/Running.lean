import Aftermath.Proofs.Shift.Basic

/-! A session that runs shifts its members once: when it was acknowledged it arms them. -/

namespace Aftermath.Hub

section
variable {h a b : Hub} {s t : SubId} {i : SessionId}

theorem subView_arm (hs : s < h.subs.length) (d : Nat) :
    (arm d h s).subView t =
      if t = s then { h.subView t with
        self.armed := true
        self.countdown := if (h.sub t).isActive then
          (h.sub t).countdown.arm (h.clock + (h.sub t).timeout.getD d) else (h.sub t).countdown }
      else h.subView t := by
  unfold arm; dsimp only
  generalize hh : (h.onSub s fun sub => { sub with armed := true }) = h1
  have hlen : s < h1.subs.length := by rw [← hh]; simpa using hs
  have hclock : h1.clock = h.clock := by rw [← hh]; rfl
  have hv : h1.subView t =
      if t = s then { h.subView t with self.armed := true } else h.subView t := by
    rw [← hh]; exact subView_onSub _ _ _ hs _
  rw [subView_startCountdown hlen, hv, hclock]
  by_cases hts : t = s
  · subst hts
    rw [if_pos rfl] at hv
    have hs' : (h1.sub t).timeout = (h.sub t).timeout := congrArg (·.self.timeout) hv
    rw [if_pos rfl, if_pos rfl, hs']
    by_cases ha : (h.sub t).isActive
    · rw [if_pos ⟨rfl, ha⟩, if_pos ha]; rfl
    · rw [if_neg fun k => ha k.2, if_neg ha]; rfl
  · rw [if_neg fun k => hts k.1, if_neg hts, if_neg hts]

/-- What arming its members does to the subscriptions of a session. -/
theorem subView_foldl_arm (d : Nat) (l : List SubId) (hs : ∀ s ∈ l, s < h.subs.length) :
    ∃ c : Countdown,
      ((l.foldl (arm d) h).subView t) =
        (if t ∈ l then { h.subView t with self.armed := true, self.countdown := c }
          else h.subView t) ∧
      (t ∈ l → (h.sub t).isActive → c.due = some (h.clock + (h.sub t).timeout.getD d)) ∧
      ((h.sub t).isActive = false → c = (h.sub t).countdown) := by
  induction l generalizing h with
  | nil => exact ⟨(h.sub t).countdown, by simp, by simp, fun _ => rfl⟩
  | cons s l ih =>
    have hv1 := subView_arm (t := t) (hs s List.mem_cons_self) d
    generalize hh : arm d h s = h1 at hv1
    have hlen : ∀ s ∈ l, s < h1.subs.length := by
      intro u hu; rw [← hh]; simpa [arm] using hs u (List.mem_cons_of_mem _ hu)
    have hclock : h1.clock = h.clock := by rw [← hh]; simp [arm, onSub]
    have hself : h1.sub t = (h1.subView t).self := rfl
    obtain ⟨c, hv, hdue, hkeep⟩ := ih hlen
    rw [List.foldl_cons, hh, hv]
    rw [hself, hclock] at hdue
    rw [hself] at hkeep
    by_cases hts : t = s
    · subst hts
      rw [if_pos rfl] at hv1
      rw [hv1] at hdue hkeep ⊢
      by_cases hl : t ∈ l
      · refine ⟨c, by simp [hl], fun _ ha => hdue hl ha, fun ha => ?_⟩
        rw [hkeep ha, if_neg (by simpa using ha)]
      · refine ⟨_, by simp only [hl, List.mem_cons, true_or, ↓reduceIte]; rfl, ?_, ?_⟩
        · intro _ ha; rw [if_pos ha]; rfl
        · intro ha; rw [if_neg (by simpa using ha)]
    · rw [if_neg hts] at hv1
      rw [hv1] at hdue hkeep ⊢
      exact ⟨c, by simp [hts], fun hl ha => hdue ((List.mem_cons.1 hl).resolve_left hts) ha, hkeep⟩

/-- A session that runs changes its subscriptions only when it arms them. -/
theorem subView_drive {rest : List Frame} (hst : h.stack = .driving i :: rest)
    (hm : ∀ s ∈ (h.session i).members, s < h.subs.length) :
    (h.drive i).subView t = h.subView t ∨
      (h.session i).phase = .acknowledging [] ∧ (h.session i).running = none ∧
        (h.session i).claim = none ∧ t ∈ (h.session i).members ∧
        ∃ c : Countdown,
          (h.drive i).subView t = { h.subView t with self.armed := true, self.countdown := c } ∧
          ((h.sub t).isActive → c.due = some (h.clock +
            (h.sub t).timeout.getD ((h.session i).timeout.getD h.settings.defaultTimeout))) ∧
          ((h.sub t).isActive = false → c = (h.sub t).countdown) := by
  have hpop := subView_pop h t hst rfl
  unfold drive; dsimp only
  split
  · exact .inl (subView_push_silent _ _ rfl)
  · next hr =>
    split
    case h_1 =>
      left
      split
      · rw [subView_release, subView_setPhase]
      · split <;> simp
    case h_2 | h_11 | h_15 => exact .inl (by rw [subView_conclude, subView_note_silent _ _ rfl rfl])
    case h_3 | h_6 | h_9 | h_10 | h_12 | h_13 | h_14 => exact .inl (by simp)
    case h_4 =>
      left
      split
      · rw [subView_setPhase, subView_note_silent _ _ rfl rfl]
      · rw [subView_push_silent _ _ rfl, subView_setPhase, subView_note_silent _ _ rfl rfl]
    case h_5 => exact .inl (subView_push_silent _ _ rfl)
    case h_7 hp =>
      split
      · exact .inl (by simp)
      · split
        · exact .inl (by simp)
        · next hs =>
          rw [subView_setPhase]
          have hc : (h.session i).claim = none := by simpa [Session.isSettled] using hs
          obtain ⟨c, hv, hdue, hkeep⟩ := subView_foldl_arm (t := t)
            ((h.session i).timeout.getD h.settings.defaultTimeout) (h.session i).members hm
          rw [armAll, hv]
          by_cases ht : t ∈ (h.session i).members
          · exact .inr ⟨hp, hr, hc, ht, c, by rw [if_pos ht], hdue ht, hkeep⟩
          · exact .inl (if_neg ht)
    case h_8 => exact .inl (subView_await _ _ _ hst)
    case h_16 => exact .inl (subView_leave _ _ _ _ hst)
    case h_17 =>
      left
      rw [subView_reply, subView_pop _ t (f := .driving i) (l := rest)
        (by rw [stack_onSession, stack_writeBusy, hst]) rfl, subView_onSession, subView_writeBusy]
    all_goals exact .inl hpop

theorem drive_shift {rest : List Frame} (hst : h.stack = .driving i :: rest)
    (hm : ∀ s ∈ (h.session i).members, s < h.subs.length) :
    Shift h b t (h.subView t) ((h.drive i).subView t) := by
  rcases subView_drive (t := t) hst hm with hv | ⟨hp, hr, hc, ht, c, hv, hdue, hkeep⟩
  · rw [hv]; exact .idle
  · rw [hv]; exact .armed hst hp hr hc ht hdue hkeep

theorem subView_prepare : (h.prepare i).subView t = h.subView t := by
  unfold prepare; dsimp only
  rw [subView_push_silent _ _ rfl, subView_onSession]
  split <;> rfl

theorem subView_enter {rest : List Frame} (hst : h.stack = .entering i :: rest) :
    (h.enter i).subView t = h.subView t := by
  have hp : (h.pop.push (.driving i)).subView t = h.subView t := by
    rw [subView_push_silent _ _ rfl, subView_pop _ _ hst rfl]
  unfold enter; dsimp only
  split
  · rw [subView_prepare]
  · split
    · rw [subView_release, subView_onSession, hp]
    · split
      · rw [subView_setPhase, hp]
      · exact hp

theorem subView_drop : (h.drop i).subView t = h.subView t := by
  unfold drop; dsimp only
  split
  · rw [subView_release, subView_onSession, subView_push_silent _ _ rfl]
  · rw [subView_setPhase]

theorem subView_suspend {f : Frame} {rest : List Frame} (hst : h.stack = f :: rest)
    (hf : f.sub? = none) (hl : rest.head? = some (.driving i)) :
    h.pop.pop.subView t = h.subView t := by
  obtain ⟨g, hr⟩ : ∃ g, rest = .driving i :: g := by
    cases rest with
    | nil => cases hl
    | cons a g => cases hl; exact ⟨g, rfl⟩
  have hp : h.pop.stack = .driving i :: g := by rw [← hr]; simp [pop, hst]
  rw [subView_pop _ _ hp rfl, subView_pop _ _ hst hf]

theorem subView_hookReplied {k : HookId} {arg : Argument} {rest : List Frame} {r : HookReply}
    (hst : h.stack = .hook i k arg :: rest) (hl : rest.head? = some (.driving i)) :
    (h.pop.hookReplied i k r).subView t = h.subView t := by
  have hp : h.pop.subView t = h.subView t := subView_pop _ _ hst rfl
  unfold hookReplied; dsimp only
  split
  · rw [subView_note_silent _ _ rfl rfl, subView_onSession, hp]
  · rw [subView_conclude, subView_onSession, hp]
  · rw [subView_close, subView_onSession, hp]
  · exact subView_suspend hst rfl hl

theorem subView_postReplied {rest : List Frame} {r : PostReply}
    (hst : h.stack = .posting i :: rest) (hl : rest.head? = some (.driving i)) :
    (h.pop.postReplied i r).subView t = h.subView t := by
  have hp : h.pop.subView t = h.subView t := subView_pop _ _ hst rfl
  unfold postReplied; dsimp only
  split
  · rw [subView_setPhase, subView_note_silent _ _ rfl rfl, hp]
  · split
    · rw [subView_release, subView_setPhase, subView_note_silent _ _ rfl rfl, hp]
    · split
      · rw [subView_release, subView_setPhase, subView_note_silent _ _ rfl rfl, hp]
      · rw [subView_setPhase, subView_note_silent _ _ rfl rfl, subView_note_silent _ _ rfl rfl, hp]
  · exact subView_suspend hst rfl hl

end

end Aftermath.Hub
