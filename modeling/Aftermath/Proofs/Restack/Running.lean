import Aftermath.Proofs.Restack.Basic

/-! What a session that runs, a call or an answer does to the stack. -/

namespace Aftermath.Hub

section
variable {h h' : Hub} {i : SessionId} {s : SubId} {f : Frame} {old new rest : List Frame}

/-! ### Sessions that run -/

inductive Driven (h : Hub) (i : SessionId) : List Frame → Prop where
  | stays : Driven h i h.stack
  | releases : Driven h i (.releasing i (h.session i).members 0 :: h.stack)
  | hooks {k : HookId} {arg : Argument} : Driven h i (.hook i k arg :: h.stack)
  | posts : Driven h i (.posting i :: h.stack)
  | leaves : Driven h i h.stack.tail

theorem stack_close (hi : i < h.sessions.length) (e : Ending) :
    (h.close i e).stack = .releasing i (h.session i).members 0 :: h.stack := by
  rw [close, stack_release, members_setPhase hi, stack_setPhase]

theorem stack_conclude (hi : i < h.sessions.length) (e : Ending) :
    (h.conclude i e).stack = .releasing i (h.session i).members 0 :: h.stack :=
  stack_close (h := h.note (.ending i e)) hi e

theorem driven_handleFailure (hi : i < h.sessions.length) (e : PostError) :
    Driven h i (h.handleFailure i e).stack := by
  unfold handleFailure
  split
  · rw [stack_conclude (by exact hi)]; exact .releases
  · exact .stays

theorem driven_resolve (hi : i < h.sessions.length) (r : Report) :
    Driven h i (h.resolve i r).stack := by
  unfold resolve; dsimp only
  split
  · split
    · exact .stays
    · rw [stack_conclude hi]; exact .releases
  · split
    · exact .stays
    · rw [stack_conclude hi]; exact .releases
  · exact driven_handleFailure hi _
  · exact .stays

theorem driven_await (hi : i < h.sessions.length) : Driven h i (h.await i).stack := by
  unfold await; dsimp only
  split
  · split
    · rw [stack_conclude hi]; exact .releases
    · exact .leaves
  · split
    · rw [stack_release, members_setPhase (by simpa using hi), stack_setPhase, stack_note,
        stack_onSession]
      rw [show ∀ x, ((h.onSession i _).note x).session i = (h.onSession i _).session i from
        fun _ => rfl, session_onSession _ _ _ hi, if_pos rfl]
      exact .releases
    · exact .stays
  · rw [stack_release, session_onSession _ _ _ hi, if_pos rfl, stack_onSession]; exact .releases

theorem driven_drive (hi : i < h.sessions.length) : Driven h i (h.drive i).stack := by
  unfold drive; dsimp only
  split
  · exact .hooks
  · split
    case h_1 =>
      split
      · rw [stack_release, members_setPhase hi]; exact .releases
      · split
        · exact .stays
        · rw [stack_setPhase, stack_writeBusy]; exact .stays
    case h_2 | h_11 | h_15 => rw [stack_conclude (by exact hi)]; exact .releases
    case h_3 | h_6 | h_13 => exact .hooks
    case h_4 =>
      split
      · exact .stays
      · exact .posts
    case h_5 => exact .posts
    case h_7 =>
      split
      · rw [stack_conclude hi]; exact .releases
      · rw [stack_setPhase]
        split
        · exact .stays
        · rw [stack_armAll]; exact .stays
    case h_8 => exact driven_await hi
    case h_9 => exact driven_resolve hi _
    case h_10 => exact driven_handleFailure hi _
    case h_12 | h_14 => rw [stack_conclude hi]; exact .releases
    case h_16 e _ =>
      obtain ⟨g, -, -, hgst, he⟩ := leave_eq h i e
      rw [he, stack_reply]
      show Driven h i g.stack.tail
      rw [hgst]; exact .leaves
    case h_17 =>
      rw [stack_reply]
      show Driven h i (h.writeBusy i false).stack.tail
      rw [stack_writeBusy]; exact .leaves
    all_goals exact .leaves

/-- A release of members that exist is laid. -/
theorem laid_release (hw : Wired h) (hi : i < h.sessions.length) (hs : h'.size = h.size)
    (hl : h'.Laid rest) : h'.Laid (.releasing i (h.session i).members 0 :: rest) := by
  have hsub : h'.subs.length = h.subs.length := congrArg Prod.fst hs
  have hses : h'.sessions.length = h.sessions.length := congrArg Prod.snd hs
  exact ⟨⟨by rw [hses]; exact hi, by rw [hsub]; exact hw.members i⟩, hl⟩

theorem thread_ne_of_leaves (hst : h.stack = .driving i :: rest) (hst' : h'.stack = rest) :
    h'.thread i ≠ h.thread i := by
  have ht : h.thread i = .driving i :: h'.thread i := by
    unfold thread; rw [hst, hst']; exact List.filter_cons_of_pos (by simp [Frame.session?])
  intro he
  have := congrArg List.length (he ▸ ht)
  simp at this

theorem drive_restacks (hw : Wired h) (hst : h.stack = .driving i :: rest)
    (hi : i < h.sessions.length) : ∃ old new rest, Restacks h (h.drive i) old new rest := by
  have hsize := size_of_given (given_drive h i)
  have hd := driven_drive hi
  generalize h.drive i = k at hsize hd
  have hses : k.sessions.length = h.sessions.length := congrArg Prod.snd hsize
  generalize hk : k.stack = l at hd
  cases hd with
  | stays => exact ⟨_, _, _, .of_eq hk⟩
  | releases =>
    exact ⟨[], [_], _, .of_push hk (laid_release hw hi hsize) (by simp)⟩
  | hooks =>
    refine ⟨[], [_], _, .of_push hk (fun hl => ⟨⟨by rw [hses]; exact hi, ?_⟩, hl⟩) (by simp)⟩
    show h.stack.head? = _
    rw [hst]; rfl
  | posts =>
    refine ⟨[], [_], _, .of_push hk (fun hl => ⟨⟨by rw [hses]; exact hi, ?_⟩, hl⟩) (by simp)⟩
    show h.stack.head? = _
    rw [hst]; rfl
  | leaves =>
    rw [hst, List.tail_cons] at hk
    refine ⟨[.driving i], [], rest, hst, hk, id, by simp [toCancel, Frame.toCancel],
      fun _ _ => rfl, ?_⟩
    intro j hj
    obtain rfl : j = i := by simpa using hj
    exact thread_ne_of_leaves hst hk

theorem prepare_restacks (hi : i < h.sessions.length) :
    ∃ old new rest, Restacks h (h.prepare i) old new rest := by
  have hik : i < (h.prepare i).sessions.length :=
    Nat.lt_of_lt_of_eq hi (congrArg Prod.snd (size_of_given (given_prepare h i))).symm
  obtain ⟨g, c, -, -, hst, he⟩ := prepare_eq h i
  refine ⟨[], [.configuring i], _, .of_push ?_ (fun hl => ⟨hik, hl⟩) (by simp)⟩
  rw [he, stack_push, stack_onSession, hst]; rfl

theorem thread_ne_of_enters (hst : h.stack = .entering i :: rest)
    (hst' : h'.stack = new ++ .driving i :: rest) (hn : ∀ f ∈ new, f.session? = none) :
    h'.thread i ≠ h.thread i := by
  have ht : h.thread i = .entering i :: rest.filter (fun f => f.session? = some i) := by
    unfold thread; rw [hst]; exact List.filter_cons_of_pos (by simp [Frame.session?])
  have ht' : h'.thread i = .driving i :: rest.filter (fun f => f.session? = some i) := by
    have hnew : new.filter (fun f => f.session? = some i) = [] :=
      List.filter_eq_nil_iff.2 fun f hf => by simp [hn f hf]
    unfold thread
    rw [hst', List.filter_append, hnew, List.nil_append]
    exact List.filter_cons_of_pos (by simp [Frame.session?])
  rw [ht, ht']; simp

theorem enter_restacks (hw : Wired h) (hst : h.stack = .entering i :: rest)
    (hi : i < h.sessions.length) : ∃ old new rest, Restacks h (h.enter i) old new rest := by
  have hsize := size_of_given (given_enter h i)
  have hik : i < (h.enter i).sessions.length :=
    Nat.lt_of_lt_of_eq hi (congrArg Prod.snd hsize).symm
  have hpop : h.pop.stack = rest := stack_pop hst
  have hdr : ∀ {k : Hub} {new : List Frame}, k.stack = new ++ .driving i :: rest →
      (∀ f ∈ new, f.session? = none) → ∀ j, .driving j ∈ [.entering i] ++ (new ++ [.driving i]) →
      k.thread j ≠ h.thread j := by
    intro k new hk hn j hj
    have hji : j = i := by
      simp only [List.mem_append, List.mem_singleton, reduceCtorEq, false_or, Frame.driving.injEq]
        at hj
      exact hj.resolve_left fun hm => by cases hn _ hm
    subst hji
    exact thread_ne_of_enters hst hk hn
  generalize hk : h.enter i = k at hsize hik
  unfold enter at hk
  dsimp only at hk
  split at hk
  · rw [← hk]; exact prepare_restacks hi
  · split at hk
    · have hks : k.stack = [.releasing i (h.session i).members 0] ++ .driving i :: rest := by
        rw [← hk, stack_release, session_onSession _ _ _ (by exact hi), if_pos rfl, stack_onSession,
          stack_push, hpop]
        rfl
      refine ⟨[.entering i], _ ++ [.driving i], rest, hst, by rw [hks]; simp, ?_,
        by simp [toCancel, Frame.toCancel], by simp, hdr hks (by simp [Frame.session?])⟩
      intro hl
      exact laid_release hw hi hsize ⟨hik, hl⟩
    · have hks : k.stack = [] ++ .driving i :: rest := by
        rw [← hk]
        split
        · rw [stack_setPhase, stack_push, hpop]; rfl
        · rw [stack_push, hpop]; rfl
      exact ⟨[.entering i], [] ++ [.driving i], rest, hst, by rw [hks]; simp,
        fun hl => show k.Laid (.driving i :: rest) from ⟨hik, hl⟩,
        by simp [toCancel, Frame.toCancel], by simp, hdr hks (by simp)⟩

theorem drop_restacks (hw : Wired h) (hi : i < h.sessions.length) :
    ∃ old new rest, Restacks h (h.drop i) old new rest := by
  have hsize := size_of_given (given_drop h i)
  have hik : i < (h.drop i).sessions.length :=
    Nat.lt_of_lt_of_eq hi (congrArg Prod.snd hsize).symm
  generalize hk : h.drop i = k at hsize hik
  unfold drop at hk
  dsimp only at hk
  split at hk
  · have hks : k.stack = [.releasing i (h.session i).members 0, .driving i] ++ h.stack := by
      rw [← hk, stack_release, session_onSession _ _ _ (by exact hi), if_pos rfl]; rfl
    refine ⟨[], _, _, rfl, hks, ?_, by simp [toCancel], by simp, ?_⟩
    · intro hl
      exact laid_release hw hi hsize ⟨hik, hl⟩
    · intro j hj
      obtain rfl : j = i := by simpa using hj
      have ht : k.thread j = .driving j :: h.thread j := by
        unfold thread; rw [hks]; simp [Frame.session?]
      rw [ht]
      intro he
      simpa using congrArg List.length he
  · exact ⟨_, _, _, .of_eq (by rw [← hk]; rfl)⟩

theorem stack_cancelAll (hi : i < h.sessions.length) :
    (h.cancelAll i).stack = .releasing i (h.session i).members 0 :: h.stack := by
  unfold cancelAll; dsimp only
  rw [stack_release]
  split
  · rfl
  · rw [show ∀ x, ((h.onSession i _).note x).session i = (h.onSession i _).session i from
        fun _ => rfl, session_onSession _ _ _ hi, if_pos rfl]
    rfl

theorem cancelAll_restacks (hw : Wired h) (hi : i < h.sessions.length) :
    ∃ old new rest, Restacks h (h.cancelAll i) old new rest :=
  ⟨[], [.releasing i (h.session i).members 0], _, .of_push (stack_cancelAll hi)
    (laid_release hw hi (size_of_given (given_cancelAll h i))) (by simp)⟩

theorem home_cancel (hs : s < h.subs.length) (t : SubId) :
    ((h.cancel s).sub t).home = (h.sub t).home := by
  unfold cancel
  split
  · rw [sub_finish (by simpa [setState] using hs), sub_setState hs]
    split <;> rfl
  · rfl

/-- The home of a new subscription is the session it is made for. -/
theorem home_subscribe (key : Key) (kind : Kind) :
    ((h.subscribe i key kind).sub h.subs.length).home = i := by
  unfold subscribe; dsimp only
  generalize hg : (({ h with subs := h.subs ++ [{ key, kind, home := i }] } : Hub).onSession i _).push
    (.subscribing h.subs.length) = g
  have hgs : h.subs.length < g.subs.length := by rw [← hg]; simp
  have hgh : (g.sub h.subs.length).home = i := by
    rw [← hg, sub_push, sub_onSession, sub_append, if_pos rfl]
  unfold register; dsimp only
  split
  · rw [home_cancel (by exact hgs)]; exact hgh
  · exact hgh

theorem subscribe_restacks {key : Key} {kind : Kind} (hst : h.stack = .configuring i :: rest) :
    ∃ old new rest, Restacks h (h.subscribe i key kind) old new rest := by
  have hlen := subs_length_lt_subscribe h i key kind
  have hhome := home_subscribe (h := h) (i := i) key kind
  generalize hk : h.subscribe i key kind = k at hlen hhome
  unfold subscribe at hk
  dsimp only at hk
  generalize hg : (({ h with subs := h.subs ++ [{ key, kind, home := i }] } : Hub).onSession i _).push
    (.subscribing h.subs.length) = g at hk
  have hgst : g.stack = .subscribing h.subs.length :: h.stack := by rw [← hg]; rfl
  obtain ⟨new, hnew, he⟩ := exits_register (h := g) (i := i) (s := h.subs.length)
  rw [hk, hgst] at hnew
  refine ⟨[], new ++ [.subscribing h.subs.length], h.stack, .of_push (by rw [hnew]; simp) ?_ ?_⟩
  · intro hl
    have hreq : k.Laid (.subscribing h.subs.length :: h.stack) :=
      ⟨⟨hlen, by rw [hhome, hst]; rfl⟩, hl⟩
    simpa using he.laid hlen hreq
  · intro j hj
    simp only [List.mem_append, List.mem_singleton, reduceCtorEq, or_false] at hj
    exact he.not_driving hj

theorem stack_cancelToken (t : TokenId) : (h.cancelToken t).stack = h.stack := by
  unfold cancelToken; dsimp only
  split
  · rfl
  · generalize hg : ({ h with tokens := h.tokens.set t _ } : Hub) = g
    have hs : g.stack = h.stack := by rw [← hg]
    rw [← hs]
    generalize (h.token t).sessions = l
    clear hg hs
    induction l generalizing g with
    | nil => rfl
    | cons j l ih => rw [List.foldl_cons, ih]; split <;> rfl

/-! ### Answers -/

/-- A hook or a post that is answered gives way to a release, or its session is suspended. -/
theorem answered_restacks (hw : Wired h) (hst : h.stack = f :: rest) (hf : f.session? = some i)
    (hd : ∀ j, f ≠ .driving j) (hl : rest.head? = some (.driving i)) (hi : i < h.sessions.length)
    (hsize : h'.size = h.size)
    (hk : h'.stack = rest ∨ h'.stack = .releasing i (h.session i).members 0 :: rest ∨
      h'.stack = rest.tail) : ∃ old new rest, Restacks h h' old new rest := by
  have hc : ∀ j, f.toCancel j = [] := by
    intro j; cases f <;> first | rfl | cases hf
  have hd' : ∀ j, .driving j ∉ [f] := fun j hj => hd j (List.mem_singleton.1 hj).symm
  rcases hk with hk | hk | hk
  · exact ⟨_, _, _, .of_drop hst hk hc hd⟩
  · refine ⟨_, [_], _, .of_pop hst hk hc (fun j hj => ?_) (laid_release hw hi hsize)⟩
    rcases List.mem_cons.1 hj with hj | hj
    · exact hd j hj.symm
    · cases List.mem_singleton.1 hj
  · obtain ⟨l, rfl⟩ : ∃ l, rest = .driving i :: l := by
      cases rest with
      | nil => cases hl
      | cons a l => cases hl; exact ⟨l, rfl⟩
    have hclear : ∀ j, toCancel j [f, .driving i] = [] := fun j => by
      rw [toCancel, List.flatMap_cons, hc]; rfl
    refine ⟨[f, .driving i], [], l, hst, hk, id, ?_, fun j _ => hclear j, ?_⟩
    · intro j s hs
      rw [hclear] at hs
      cases hs
    · intro j hj
      obtain rfl : j = i := by
        simpa [hd j, Ne.symm (hd j)] using hj
      have ht : h.thread j = f :: .driving j :: h'.thread j := by
        unfold thread
        rw [hst, hk, List.filter_cons_of_pos (by simpa using hf),
          List.filter_cons_of_pos (by simp [Frame.session?])]
        rfl
      intro he
      have := congrArg List.length (he ▸ ht)
      simp at this
      omega

theorem stack_hookReplied {k : HookId} {arg : Argument} (r : HookReply)
    (hst : h.stack = .hook i k arg :: rest) (hi : i < h.sessions.length) :
    (h.pop.hookReplied i k r).stack = rest ∨
      (h.pop.hookReplied i k r).stack = .releasing i (h.session i).members 0 :: rest ∨
      (h.pop.hookReplied i k r).stack = rest.tail := by
  have hpop : h.pop.stack = rest := stack_pop hst
  have hm := session_onSession h.pop i i hi fun x => { x with running := none }
  rw [if_pos rfl] at hm
  unfold hookReplied; dsimp only
  split
  · exact .inl hpop
  · right; left
    rw [stack_conclude (by simpa using hi), hm, stack_onSession, hpop]; rfl
  · right; left
    rw [stack_close (by simpa using hi), hm, stack_onSession, hpop]; rfl
  · right; right
    show h.pop.stack.tail = _
    rw [hpop]

theorem stack_postReplied (r : PostReply) (hst : h.stack = .posting i :: rest)
    (hi : i < h.sessions.length) :
    (h.pop.postReplied i r).stack = rest ∨
      (h.pop.postReplied i r).stack = .releasing i (h.session i).members 0 :: rest ∨
      (h.pop.postReplied i r).stack = rest.tail := by
  have hpop : h.pop.stack = rest := stack_pop hst
  unfold postReplied; dsimp only
  split
  · exact .inl hpop
  · split
    · right; left
      rw [stack_release, members_setPhase (by exact hi), stack_setPhase, stack_note, hpop]; rfl
    · split
      · right; left
        rw [stack_release, members_setPhase (by exact hi), stack_setPhase, stack_note, hpop]; rfl
      · exact .inl hpop
  · right; right
    show h.pop.stack.tail = _
    rw [hpop]

end

end Aftermath.Hub
