import Aftermath.Proofs.Turn

/-! What one move does to the stack: it replaces a few frames on top. The new ones lie on what they
need, a release lets go only of subscriptions that are no longer active, and a session's frame comes
or goes only with a change of its thread. -/

namespace Aftermath

/-- The subscriptions of a session that a frame still has to cancel. -/
def Frame.toCancel (i : SessionId) : Frame → List SubId
  | .releasing j rest _ => if j = i then rest else []
  | _ => []

namespace Hub

def toCancel (i : SessionId) (l : List Frame) : List SubId := l.flatMap (Frame.toCancel i)

/-- The frames `old` on top of the stack give way to `new`. -/
structure Restacks (h h' : Hub) (old new rest : List Frame) : Prop where
  before : h.stack = old ++ rest
  after : h'.stack = new ++ rest
  laid : h'.Laid rest → h'.Laid (new ++ rest)
  sweeps : ∀ i, ∀ s ∈ toCancel i old, (h'.sub s).isActive → s ∈ toCancel i new
  /-- Nothing is left to cancel above the frame of a session that leaves. -/
  clear : ∀ i, .driving i ∈ old → toCancel i old = []
  drives : ∀ i, .driving i ∈ old ++ new → h'.thread i ≠ h.thread i

section
variable {h h' : Hub} {i : SessionId} {s : SubId} {f : Frame} {old new rest : List Frame}

theorem Restacks.of_eq (he : h'.stack = h.stack) : Restacks h h' [] [] h.stack where
  before := rfl
  after := he
  laid := id
  sweeps := by simp [toCancel]
  clear := by simp
  drives := by simp

theorem Restacks.of_push (hst : h'.stack = new ++ h.stack)
    (hl : h'.Laid h.stack → h'.Laid (new ++ h.stack)) (hd : ∀ i, .driving i ∉ new) :
    Restacks h h' [] new h.stack where
  before := rfl
  after := hst
  laid := hl
  sweeps := by simp [toCancel]
  clear := by simp
  drives i hi := absurd hi (by simpa using hd i)

/-- A frame that neither releases nor drives gives way to others of the sort. -/
theorem Restacks.of_pop (hst : h.stack = f :: rest) (hst' : h'.stack = new ++ rest)
    (hf : ∀ i, f.toCancel i = []) (hd : ∀ i, .driving i ∉ f :: new)
    (hl : h'.Laid rest → h'.Laid (new ++ rest)) : Restacks h h' [f] new rest where
  before := hst
  after := hst'
  laid := hl
  sweeps := by simp [toCancel, hf]
  clear i _ := by simp [toCancel, hf]
  drives i hi := absurd hi (by simpa using hd i)

theorem Restacks.of_drop (hst : h.stack = f :: rest) (hst' : h'.stack = rest)
    (hf : ∀ i, f.toCancel i = []) (hd : ∀ i, f ≠ .driving i) : Restacks h h' [f] [] rest :=
  .of_pop hst hst' hf (fun i hi => hd i (List.mem_singleton.1 hi).symm) id

/-! ### Subscriptions that leave `active` -/

/-- The frames of a subscription that leaves `active`. -/
def Exits (s : SubId) (new : List Frame) : Prop :=
  new = [] ∨ ∃ (u : List LeaseId) (f : Frame),
    new = u.map .unsubscribing ++ [f] ∧ f.sub? = some s ∧ f.report?.isSome

theorem Exits.frame (he : Exits s new) (hf : f ∈ new) :
    (∃ l, f = .unsubscribing l) ∨ f.sub? = some s ∧ f.report?.isSome := by
  rcases he with rfl | ⟨u, g, rfl, hg⟩
  · cases hf
  · simp only [List.mem_append, List.mem_map, List.mem_singleton] at hf
    rcases hf with ⟨l, -, rfl⟩ | rfl
    · exact .inl ⟨l, rfl⟩
    · exact .inr hg

theorem Exits.not_driving (he : Exits s new) : .driving i ∉ new := by
  intro hf
  rcases he.frame hf with ⟨l, hl⟩ | ⟨hs, -⟩
  · cases hl
  · cases hs

theorem Exits.laid (he : Exits s new) (hs : s < h.subs.length) (hl : h.Laid rest) :
    h.Laid (new ++ rest) := by
  rcases he with rfl | ⟨u, f, rfl, hf, hr⟩
  · exact hl
  · have hfr : h.Laid (f :: rest) := by
      refine ⟨?_, hl⟩
      cases f <;> cases hf
      · exact hs
      · exact hs
      · exact hs
      · cases hr
    induction u with
    | nil => exact hfr
    | cons l u ih => exact ⟨trivial, ih⟩

theorem exits_finish (hf : f.sub? = some s) (hr : f.report?.isSome) :
    ∃ new, (h.finish s f).stack = new ++ h.stack ∧ Exits s new :=
  ⟨_, by rw [stack_finish, List.append_cons], .inr ⟨_, f, rfl, hf, hr⟩⟩

theorem exits_cancel : ∃ new, (h.cancel s).stack = new ++ h.stack ∧ Exits s new := by
  unfold cancel
  split
  · exact exits_finish (h := h.setState s .cancelled) rfl rfl
  · exact ⟨[], rfl, .inl rfl⟩

theorem exits_deliver (e : Envelope) :
    ∃ new, (h.deliver s e).stack = new ++ h.stack ∧ Exits s new := by
  unfold deliver; dsimp only
  split
  · exact ⟨[], rfl, .inl rfl⟩
  · split
    · exact exits_finish (h := h.setState s .fired) rfl rfl
    · exact ⟨[], rfl, .inl rfl⟩

theorem exits_ring (g : Nat) : ∃ new, (h.ring s g).stack = new ++ h.stack ∧ Exits s new := by
  unfold ring; dsimp only
  split
  · exact ⟨[], rfl, .inl rfl⟩
  · split
    · exact exits_finish (h := (h.onSub s _).setState s .timedOut) rfl rfl
    · exact ⟨[], rfl, .inl rfl⟩

theorem exits_register : ∃ new, (h.register i s).stack = new ++ h.stack ∧ Exits s new := by
  unfold register; dsimp only
  split
  · exact exits_cancel (h := h.onSession i _)
  · exact ⟨[], rfl, .inl rfl⟩

theorem Restacks.of_exits (he : ∃ new, h'.stack = new ++ h.stack ∧ Exits s new)
    (hs : s < h'.subs.length) : ∃ old new rest, Restacks h h' old new rest := by
  obtain ⟨new, hst, he⟩ := he
  exact ⟨_, _, _, .of_push hst (he.laid hs) fun _ => he.not_driving⟩

/-- A release that is through goes, and has nothing left to cancel. -/
theorem releaseStep_restacks_nil {n : Nat} (hst : h.stack = .releasing i [] n :: rest) :
    Restacks h (h.pop.releaseStep i [] n) [.releasing i [] n] [] rest where
  before := hst
  after := by
    unfold releaseStep
    rw [stack_reply]
    split <;> exact stack_pop hst
  laid := id
  sweeps j s hs := by simp [toCancel, Frame.toCancel] at hs
  clear := by simp
  drives := by simp

/-- What a release has still to cancel behind the subscription that it is at. -/
theorem mem_toCancel_releasing {t : SubId} {l : List SubId} {j : SessionId} {n m : Nat}
    (ht : t ∈ toCancel j [.releasing i (s :: l) n]) (hne : t ≠ s) :
    t ∈ toCancel j [.releasing i l m] := by
  simp only [toCancel, Frame.toCancel, List.flatMap_cons, List.flatMap_nil, List.append_nil] at ht ⊢
  split at ht
  · next hij =>
    rw [if_pos hij]
    exact (List.mem_cons.1 ht).resolve_left hne
  · cases ht

theorem releaseStep_restacks {l : List SubId} {n : Nat} (hst : h.stack = .releasing i l n :: rest)
    (hl : h.Laid h.stack) :
    ∃ old new rest, Restacks h (h.pop.releaseStep i l n) old new rest := by
  obtain ⟨⟨hi, hr⟩, -⟩ : h.Laid (.releasing i l n :: rest) := hst ▸ hl
  have hsize : (h.pop.releaseStep i l n).size = h.size := size_of_given (by simp)
  have hsub : (h.pop.releaseStep i l n).subs.length = h.subs.length := congrArg Prod.fst hsize
  have hses : (h.pop.releaseStep i l n).sessions.length = h.sessions.length := congrArg Prod.snd hsize
  have hpop : h.pop.stack = rest := stack_pop hst
  cases l with
  | nil => exact ⟨_, _, _, releaseStep_restacks_nil hst⟩
  | cons s l =>
    have hr' : ∀ t ∈ l, t < h.subs.length := fun t ht => hr t (List.mem_cons_of_mem _ ht)
    generalize hk : h.pop.releaseStep i (s :: l) n = k at hsub hses
    unfold releaseStep at hk
    dsimp only at hk
    have hrel : ∀ m, k.Laid rest → k.Laid (.releasing i l m :: rest) :=
      fun m hrest => ⟨⟨by rw [hses]; exact hi, by rw [hsub]; exact hr'⟩, hrest⟩
    split at hk
    · obtain ⟨new, hnew, he⟩ := exits_cancel (h := h.pop.push (.releasing i l (n + 1))) (s := s)
      have hin := inactive_cancel (h := h.pop.push (.releasing i l (n + 1))) (s := s)
        (hr s List.mem_cons_self)
      rw [hk] at hin
      rw [hk, stack_push, hpop] at hnew
      refine ⟨[.releasing i (s :: l) n], new ++ [.releasing i l (n + 1)], rest, hst, ?_, ?_, ?_, by simp,
        fun j hj => ?_⟩
      · rw [hnew, List.append_assoc, List.singleton_append]
      · intro hrest
        rw [List.append_assoc]
        exact he.laid (h := k) (by rw [hsub]; exact hr s List.mem_cons_self) (hrel (n + 1) hrest)
      · intro j t ht hta
        simp only [toCancel, List.flatMap_append, List.mem_append]
        exact .inr (mem_toCancel_releasing ht fun he => by rw [he, hin] at hta; cases hta)
      · simp at hj
        exact absurd hj he.not_driving
    · next ha =>
      refine ⟨[.releasing i (s :: l) n], [.releasing i l n], rest, hst, ?_, hrel n, ?_, by simp, by simp⟩
      · rw [← hk, stack_push, hpop, List.singleton_append]
      · intro j t ht hta
        exact mem_toCancel_releasing ht fun he => by rw [he, ← hk] at hta; exact ha hta

end
end Hub
end Aftermath
