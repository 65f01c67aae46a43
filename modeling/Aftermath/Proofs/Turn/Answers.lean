import Aftermath.Proofs.Turn.Running

/-! An answer of a hook or of the post is a turn of the session it is meant for. -/

namespace Aftermath.Hub

section
variable {h h' : Hub} {sid i : SessionId} {s : SubId} {rest : List Frame}

theorem view_answered {f : Frame} (hst : h.stack = f :: rest) (hf : f.session? = some i) :
    h.view i = ⟨h.session i, f :: h.pop.thread i, h.beats i⟩ := by
  rw [view_of_stack _ _ hst, if_pos hf]; rfl

theorem view_suspended {f : Frame} (hst : h.stack = f :: rest) (hf : f.session? = some i)
    (hl : rest.head? = some (.driving i)) :
    Turn h h' sid (h.view sid) (h.pop.pop.view sid) := by
  obtain ⟨g, rfl⟩ : ∃ g, rest = .driving i :: g := by
    cases rest with
    | nil => cases hl
    | cons a g => cases hl; exact ⟨g, rfl⟩
  have hp : h.pop.stack = .driving i :: g := by simp [pop, hst]
  by_cases hs : sid = i
  · subst hs
    have hth : h.pop.thread sid = .driving sid :: h.pop.pop.thread sid :=
      congrArg View.thread (view_driving hp)
    rw [view_answered hst hf, hth]
    exact .pauses
  · rw [view_pop_other hs hp rfl, view_pop_other hs hst hf]; exact .idle

theorem hookReplied_turn {k : HookId} {arg : Argument} (r : HookReply)
    (hst : h.stack = .hook i k arg :: rest) (hl : rest.head? = some (.driving i))
    (hi : i < h.sessions.length) :
    Turn h (h.pop.hookReplied i k r) sid (h.view sid) ((h.pop.hookReplied i k r).view sid) := by
  obtain ⟨l, rfl⟩ : ∃ l, rest = .driving i :: l := by
    cases rest with
    | nil => cases hl
    | cons a l => cases hl; exact ⟨l, rfl⟩
  have hv := view_answered hst rfl
  unfold hookReplied; dsimp only
  generalize hg : h.pop.onSession i _ = g
  have hgst : g.stack = .driving i :: l := by rw [← hg, stack_onSession]; simp [pop, hst]
  have hgv : g.view sid = if sid = i then
      ⟨{ h.session i with running := none }, h.pop.thread i, h.beats i⟩ else h.view sid := by
    rw [← hg, view_onSession _ _ _ (by exact hi)]
    by_cases hs : sid = i
    · subst hs; rw [if_pos rfl, if_pos rfl]; rfl
    · rw [if_neg hs, if_neg hs, view_pop_other hs hst rfl]
  have hgi : i < g.sessions.length := by rw [← hg]; simpa using hi
  have hgm : (g.session i).members = (h.session i).members := by
    rw [← hg, session_onSession _ _ _ (by exact hi), if_pos rfl]; rfl
  split
  · by_cases hs : sid = i
    · subst hs
      rw [view_note, hgv, if_pos rfl, hv]
      simp only [Happening.beat?, if_pos, Option.toList_some]
      exact .ends
    · rw [view_note_other hs, hgv, if_neg hs]
      · exact .idle
      · intro b hb
        simp only [Happening.beat?] at hb
        split at hb
        · next e => exact e.symm
        · cases hb
  · next e =>
    rw [view_conclude hgi, hgv]
    by_cases hs : sid = i
    · subst hs
      rw [if_pos rfl, if_pos rfl, hv]
      exact .breaks (.inl ⟨e, rfl⟩) (releases_conclude hgi hgm hgst _)
    · rw [if_neg hs, if_neg hs]; exact .idle
  · next text =>
    rw [view_close hgi, hgv]
    by_cases hs : sid = i
    · subst hs
      rw [if_pos rfl, if_pos rfl, hv]
      exact .breaks (.inr ⟨text, rfl⟩) (releases_close hgi hgm hgst _)
    · rw [if_neg hs, if_neg hs]; exact .idle
  · exact view_suspended hst rfl hl

theorem postReplied_turn {h' : Hub} (r : PostReply) (hst : h.stack = .posting i :: rest)
    (hl : rest.head? = some (.driving i)) (hi : i < h.sessions.length) :
    Turn h h' sid (h.view sid) ((h.pop.postReplied i r).view sid) := by
  have hv := view_answered hst rfl
  by_cases hs : sid = i
  · subst hs
    unfold postReplied; dsimp only
    split
    · rw [view_setPhase (by exact hi), if_pos rfl, view_note, hv]
      simp only [Happening.beat?, if_pos, Option.toList_some]
      exact .acknowledged
    · next e =>
      have hn : (h.pop.note (.postFailed sid e)).view sid =
          ⟨h.session sid, h.pop.thread sid, h.beats sid ++ [.refused e]⟩ := by
        rw [view_note]
        simp only [Happening.beat?, if_pos, Option.toList_some]
        rfl
      split
      · next hc =>
        have hc : (h.session sid).claim = none := by simpa [Session.isSettled] using hc
        rw [view_release (by simpa [setPhase] using hi), if_pos rfl, view_setPhase (by exact hi),
          if_pos rfl, hn, hv]
        simp only [Session.settled, hc, Option.none_or]
        exact .refused hc
      · next hc =>
        have hc : (h.session sid).isSettled := by simpa using hc
        split
        · next he =>
          rw [view_release (by simpa [setPhase] using hi), if_pos rfl, view_setPhase (by exact hi),
            if_pos rfl, hn, hv, Session.settled_of_isSettled (by exact hc)]
          exact .unheard hc (by simpa using he)
        · next he =>
          rw [view_setPhase (by exact hi), if_pos rfl, view_note_silent _ _ rfl, hn, hv]
          exact .belated hc (by simpa using he)
    · exact view_suspended hst rfl hl
  · by_cases hr : r = .suspended
    · subst hr; exact view_suspended hst rfl hl
    · rw [view_postReplied_other hs hr, view_pop_other hs hst rfl]; exact .idle

end

end Aftermath.Hub
