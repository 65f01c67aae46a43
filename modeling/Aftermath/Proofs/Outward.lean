import Aftermath.Proofs.Wired

/-! What a hub shows to the outside: the busy flags of its modal surfaces, and the leases it is
granted and gives back. Only a session that writes its flag, an answer of the transport and a
subscription that lets go of its lease change it. -/

namespace Aftermath

def Frame.lease? : Frame → Option LeaseId
  | .unsubscribing l => some l
  | _ => none

def Happening.isLease : Happening → Bool
  | .granted _ _ | .returned _ _ => true
  | _ => false

namespace Hub

/-- The busy flags of the modal surfaces. -/
def flags (h : Hub) : List Bool := h.modals.map (·.busy)

/-- The busy flags, the leases that are on their way back, and what has happened to leases. -/
def outward (h : Hub) : List Bool × List LeaseId × List Happening :=
  (h.flags, h.stack.filterMap Frame.lease?, h.journal.filter Happening.isLease)

def returnedOf (p : SubId × LeaseId) : Happening := .returned p.1 p.2

/-- Some leases more are given back, and nothing else is shown. -/
def GivesBack (h h' : Hub) : Prop :=
  ∃ l : List (SubId × LeaseId), h'.outward =
    (h.outward.1, l.map Prod.snd ++ h.outward.2.1, l.map returnedOf ++ h.outward.2.2)

/-! ### Operations that show nothing -/

section
variable (h : Hub) (i : SessionId) (s : SubId)

@[simp] theorem outward_note (x : Happening) : (h.note x).outward =
    (h.outward.1, h.outward.2.1, if x.isLease then x :: h.outward.2.2 else h.outward.2.2) := by
  simp [outward, flags, note, List.filter_cons]

@[simp] theorem outward_push (f : Frame) : (h.push f).outward =
    (h.outward.1, f.lease?.toList ++ h.outward.2.1, h.outward.2.2) := by
  cases hf : f.lease? <;> simp [outward, flags, push, hf]

attribute [simp] Frame.lease? Happening.isLease

theorem outward_pop {f : Frame} {rest : List Frame} (hst : h.stack = f :: rest)
    (hf : f.lease? = none) : h.pop.outward = h.outward := by
  rw [outward, outward, hst, List.filterMap_cons_none hf, pop, hst]
  rfl

@[simp] theorem outward_reply (a : Answer) : (h.reply a).outward = h.outward := rfl

@[simp] theorem outward_onSub (f : Subscription → Subscription) :
    (h.onSub s f).outward = h.outward := rfl

@[simp] theorem outward_onSession (f : Session → Session) :
    (h.onSession i f).outward = h.outward := rfl

@[simp] theorem outward_setState (st : SubState) : (h.setState s st).outward = h.outward := rfl

@[simp] theorem outward_setPhase (p : Phase) : (h.setPhase i p).outward = h.outward := rfl

@[simp] theorem outward_settle (c : Claim) : (h.settle i c).outward = h.outward := rfl

@[simp] theorem outward_report (r : Report) : (h.report i r).outward = h.outward := by simp [report]

@[simp] theorem outward_disarm : (h.disarm s).outward = h.outward := by
  unfold disarm; dsimp only; split <;> simp

@[simp] theorem outward_startCountdown (ms : Nat) :
    (h.startCountdown s ms).outward = h.outward := by
  unfold startCountdown; dsimp only; split
  · split <;> simp
  · rfl

@[simp] theorem outward_foldl_arm (d : Nat) (l : List SubId) :
    (l.foldl (arm d) h).outward = h.outward := by
  induction l generalizing h with
  | nil => rfl
  | cons a l ih => rw [List.foldl_cons, ih]; simp [arm]

@[simp] theorem outward_armAll : (h.armAll i).outward = h.outward := outward_foldl_arm _ _ _

@[simp] theorem outward_fail (e : NetworkError) : (h.fail s e).outward = h.outward := by
  unfold fail; dsimp only; split <;> simp

@[simp] theorem outward_settleEvent (e : Envelope) : (h.settleEvent s e).outward = h.outward := by
  unfold settleEvent; dsimp only; split <;> simp

@[simp] theorem outward_settleTimeout : (h.settleTimeout s).outward = h.outward := by
  unfold settleTimeout; dsimp only; split <;> simp

@[simp] theorem outward_reportCancel : (h.reportCancel s).outward = h.outward := by
  simp [reportCancel]

@[simp] theorem outward_setTimeout (ms : Nat) : (h.setTimeout s ms).outward = h.outward := by
  unfold setTimeout; dsimp only; split <;> simp

@[simp] theorem outward_decline (e : SubscribeError) : (h.decline s e).outward = h.outward := by
  unfold decline; dsimp only; split <;> simp

@[simp] theorem outward_release (c : Claim) : (h.release i c).outward = h.outward := by
  simp [release]

@[simp] theorem outward_cancelAll : (h.cancelAll i).outward = h.outward := by
  unfold cancelAll; dsimp only; rw [outward_release]; split <;> simp

@[simp] theorem outward_cancelToken (t : TokenId) : (h.cancelToken t).outward = h.outward := by
  unfold cancelToken; dsimp only; split
  · rfl
  · generalize hh : { h with tokens := _ } = h1
    have hs : h1.outward = h.outward := by rw [← hh]; rfl
    rw [← hs]
    generalize (h.token t).sessions = l
    clear hh hs
    induction l generalizing h1 with
    | nil => rfl
    | cons a l ih => rw [List.foldl_cons, ih]; split <;> simp

@[simp] theorem outward_close (e : Ending) : (h.close i e).outward = h.outward := by simp [close]

@[simp] theorem outward_conclude (e : Ending) : (h.conclude i e).outward = h.outward := by
  simp [conclude]

@[simp] theorem outward_begin (k : HookId) (arg : Argument) :
    (h.begin i k arg).outward = h.outward := by simp [begin]

@[simp] theorem outward_handleFailure (e : PostError) :
    (h.handleFailure i e).outward = h.outward := by
  unfold handleFailure; split <;> simp

@[simp] theorem outward_resolve (r : Report) : (h.resolve i r).outward = h.outward := by
  unfold resolve; dsimp only; split
  · split <;> simp
  · split <;> simp
  · simp
  · simp

@[simp] theorem outward_configured : (h.configured i).outward = h.outward := by simp [configured]

@[simp] theorem outward_prepare : (h.prepare i).outward = h.outward := by
  unfold prepare; dsimp only
  rw [outward_push, outward_onSession]
  split <;> rfl

@[simp] theorem outward_drop : (h.drop i).outward = h.outward := by
  unfold drop; dsimp only; split <;> simp

variable {h i}

theorem outward_enter {rest : List Frame} (hst : h.stack = .entering i :: rest) :
    (h.enter i).outward = h.outward := by
  have hp := outward_pop h hst rfl
  unfold enter; dsimp only; split
  · simp
  · split
    · simp [hp]
    · split <;> simp [hp]

theorem outward_await {rest : List Frame} (hst : h.stack = .driving i :: rest) :
    (h.await i).outward = h.outward := by
  unfold await; dsimp only; split
  · split
    · simp
    · simp [outward_pop h hst rfl]
  · split <;> simp
  · simp

theorem outward_hookReplied {rest : List Frame} (hst : h.stack = .driving i :: rest) (k : HookId)
    (r : HookReply) : (h.hookReplied i k r).outward = h.outward := by
  unfold hookReplied; dsimp only; split
  · simp
  · simp
  · simp
  · simp [outward_pop h hst rfl]

theorem outward_postReplied {rest : List Frame} (hst : h.stack = .driving i :: rest)
    (r : PostReply) : (h.postReplied i r).outward = h.outward := by
  unfold postReplied; dsimp only; split
  · simp
  · split
    · simp
    · split <;> simp
  · simp [outward_pop h hst rfl]

end

/-! ### Leases that are given back -/

section
variable {h h' h'' : Hub} {i : SessionId} {s : SubId}

theorem GivesBack.same (he : h'.outward = h.outward) : GivesBack h h' := ⟨[], he⟩

theorem GivesBack.of_outward (hg : GivesBack h h') (he : h.outward = h''.outward) :
    GivesBack h'' h' := by
  unfold GivesBack
  rw [← he]
  exact hg

theorem GivesBack.flags (hg : GivesBack h h') : h'.flags = h.flags := by
  obtain ⟨l, he⟩ := hg
  exact congrArg Prod.fst he

theorem givesBack_giveBack (l : LeaseId) : GivesBack h (h.giveBack s l) :=
  ⟨[(s, l)], by simp [giveBack, returnedOf]⟩

theorem givesBack_finish {f : Frame} (hf : f.lease? = none) : GivesBack h (h.finish s f) := by
  have hp : ((h.disarm s).push f).outward = h.outward := by
    rw [outward_push, hf, outward_disarm]
    rfl
  unfold finish; dsimp only
  split
  · exact .same hp
  · exact (givesBack_giveBack _).of_outward hp

theorem givesBack_cancel : GivesBack h (h.cancel s) := by
  unfold cancel
  split
  · exact (givesBack_finish rfl).of_outward rfl
  · exact .same rfl

theorem givesBack_deliver (e : Envelope) : GivesBack h (h.deliver s e) := by
  unfold deliver; dsimp only
  split
  · exact .same (by simp)
  · split
    · exact (givesBack_finish rfl).of_outward rfl
    · exact .same (by simp)

theorem givesBack_ring (g : Nat) : GivesBack h (h.ring s g) := by
  unfold ring; dsimp only
  split
  · exact .same (by simp)
  · split
    · exact (givesBack_finish rfl).of_outward rfl
    · exact .same rfl

theorem givesBack_register : GivesBack h (h.register i s) := by
  unfold register; dsimp only
  split
  · exact givesBack_cancel.of_outward rfl
  · exact .same rfl

theorem givesBack_subscribe (key : Key) (kind : Kind) : GivesBack h (h.subscribe i key kind) := by
  unfold subscribe; dsimp only
  exact givesBack_register.of_outward (outward_push _ _)

theorem givesBack_grant (l : LeaseId) : GivesBack (h.note (.granted s l)) (h.grant s l) := by
  unfold grant; dsimp only
  split
  · exact .same rfl
  · exact givesBack_giveBack l

theorem givesBack_releaseStep (l : List SubId) (n : Nat) : GivesBack h (h.releaseStep i l n) := by
  unfold releaseStep
  split
  · split <;> exact .same (by simp)
  · split
    · exact givesBack_cancel.of_outward (by simp)
    · exact .same (by simp)

end

/-! ### Busy flags -/

/-- The session that is about to write the busy flag of its surface, and what it writes: it raises
the flag when it has passed its check and clears it when it leaves. -/
def writes? (h : Hub) : Option (SessionId × Bool) :=
  match h.stack with
  | .driving i :: _ =>
    let x := h.session i
    if x.running.isSome then none
    else match x.phase with
      | .checking => if x.isSettled || !h.allActive i then none else some (i, true)
      | .closing _ | .dropping => some (i, false)
      | _ => none
  | _ => none

def flagged (h : Hub) (i : SessionId) (b : Bool) : List Bool :=
  match (h.session i).modal with
  | none => h.flags
  | some k => h.flags.set k b

def flagging (h : Hub) : Move → List Bool
  | .newModal => h.flags ++ [false]
  | .step => match h.writes? with
    | some (i, b) => h.flagged i b
    | none => h.flags
  | _ => h.flags

section
variable {h : Hub} {i : SessionId} {k : ModalId} {rest : List Frame}

theorem busy_eq (h : Hub) (k : ModalId) : (h.modal k).busy = h.flags.getD k false := by
  simp only [modal, flags, List.getD_eq_getElem?_getD, List.getElem?_map]
  cases h.modals[k]? <;> rfl

theorem outward_setBusy (h : Hub) (k : ModalId) (b : Bool) :
    (h.setBusy k b).outward = (h.flags.set k b, h.outward.2) := by
  rw [setBusy, outward_note]
  refine Prod.ext ?_ rfl
  refine List.ext_getElem (by simp [outward, flags]) fun j _ _ => ?_
  simp only [outward, flags, List.getElem_map, List.getElem_modify, List.getElem_set]
  split <;> rfl

theorem outward_writeBusy (h : Hub) (i : SessionId) (b : Bool) :
    (h.writeBusy i b).outward = (h.flagged i b, h.outward.2) := by
  unfold writeBusy flagged
  cases (h.session i).modal with
  | none => rfl
  | some k => exact outward_setBusy h k b

theorem outward_leave (e : Ending) (hst : h.stack = .driving i :: rest) :
    (h.leave i e).outward = (h.flagged i false, h.outward.2) := by
  have hl : ∀ {k : Hub} {o}, k.outward = o → k.stack = h.stack → ∀ f : Session → Session,
      (((k.onSession i f).pop).reply .finished).outward = o := by
    intro k o ho hk f
    rw [outward_reply, outward_pop (k.onSession i f) (hk.trans hst) rfl, outward_onSession, ho]
  unfold leave flagged; dsimp only
  split
  · next hm => rw [hm]; exact hl rfl rfl _
  · next hm => rw [hm]; exact hl (outward_setBusy _ _ _) rfl _
  · next k hm _ =>
    rw [hm]
    refine hl ?_ (by split <;> rfl) _
    have ho : ∀ {a : Hub}, a.outward = (h.flags.set k false, h.outward.2) →
        (a.setBusy k false).outward = (h.flags.set k false, h.outward.2) := by
      intro a ha
      rw [outward_setBusy, show a.flags = _ from congrArg Prod.fst ha, ha, List.set_set]
    split
    · exact ho (by rw [outward_note, outward_setBusy]; rfl)
    · exact ho (outward_setBusy _ _ _)

theorem flagged_self (hm : (h.session i).modal = some k) (hk : k < h.modals.length) (b : Bool) :
    (h.flagged i b).getD k false = b := by
  rw [flagged, hm]
  simp [flags, hk]

theorem flagged_other (hm : (h.session i).modal ≠ some k) (b : Bool) :
    (h.flagged i b).getD k false = (h.modal k).busy := by
  rw [busy_eq]
  unfold flagged
  split
  · rfl
  · next j hj =>
    have hjk : j ≠ k := by
      rintro rfl
      exact hm hj
    simp [hjk]

/-- A step of a session that runs shows at most its busy flag. -/
theorem outward_drive (hst : h.stack = .driving i :: rest) :
    (h.drive i).outward = (h.flagging .step, h.outward.2) := by
  have hp := outward_pop h hst rfl
  unfold drive flagging writes?
  rw [hst]; dsimp only
  cases hr : (h.session i).running with
  | some r =>
    change (h.push _).outward = h.outward
    simp
  | none =>
    generalize (h.session i).phase = p
    cases p with
    | checking =>
      cases hc : (h.session i).isSettled <;> cases ha : h.allActive i <;>
        simp only [Bool.not_true, Bool.not_false, Bool.and_true, Bool.and_false, Bool.or_true,
          Bool.or_false, if_true, if_false, Bool.false_eq_true, outward_setPhase, outward_release]
      · rfl
      · exact outward_writeBusy h i true
      · rfl
      · rfl
    | closing e => exact outward_leave e hst
    | dropping =>
      change (((h.writeBusy i false).onSession i _).pop.reply .nothing).outward = _
      rw [outward_reply, outward_pop _ (by simpa using hst) rfl, outward_onSession,
        outward_writeBusy]
      rfl
    | awaiting => exact outward_await hst
    | preparing l =>
      change _ = h.outward
      cases l <;> simp [apply_ite outward]
    | acknowledging l =>
      change _ = h.outward
      cases l <;> simp [apply_ite outward]
    | handling l =>
      change _ = h.outward
      cases l <;> simp
    | _ =>
      change _ = h.outward
      simp [hp]

end

/-! ### Moves -/

section
variable {h h' : Hub} {m : Move} {l : LeaseId}

theorem writes?_of_stack {f : Frame} {rest : List Frame} (hst : h.stack = f :: rest)
    (hf : ∀ i, f ≠ .driving i) : h.writes? = none := by
  unfold writes?
  rw [hst]
  cases f <;> first | rfl | exact absurd rfl (hf _)

def granting (h : Hub) : Move → List Happening
  | .granted l => match h.stack with
    | .subscribing s :: _ => [.granted s l]
    | _ => []
  | _ => []

def enRoute (h : Hub) : Move → List LeaseId
  | .unsubscribed => h.outward.2.1.tail
  | _ => h.outward.2.1

theorem flagging_step {f : Frame} {rest : List Frame} (hst : h.stack = f :: rest)
    (hf : ∀ i, f ≠ .driving i) : h.flagging .step = h.flags := by
  rw [flagging, writes?_of_stack hst hf]

theorem outward_of_givesBack (hg : GivesBack h h') (hf : h.flagging m = h.flags)
    (hn : h.granting m = []) (ho : h.enRoute m = h.outward.2.1) :
    ∃ l : List (SubId × LeaseId), h'.outward = (h.flagging m, l.map Prod.snd ++ h.enRoute m,
      l.map returnedOf ++ (h.granting m ++ h.outward.2.2)) := by
  obtain ⟨l, hl⟩ := hg
  exact ⟨l, by rw [hl, hf, hn, ho]; rfl⟩

theorem outward_of_eq (he : h'.outward = h.outward) (hf : h.flagging m = h.flags)
    (hn : h.granting m = []) (ho : h.enRoute m = h.outward.2.1) :
    ∃ l : List (SubId × LeaseId), h'.outward = (h.flagging m, l.map Prod.snd ++ h.enRoute m,
      l.map returnedOf ++ (h.granting m ++ h.outward.2.2)) :=
  outward_of_givesBack (.same he) hf hn ho

/-- What a move shows: a flag is written, a lease is granted, some are given back, or one arrives. -/
theorem outward_move (ha : Reachable h) (hm : Moved h m h') :
    ∃ l : List (SubId × LeaseId), h'.outward = (h.flagging m, l.map Prod.snd ++ h.enRoute m,
      l.map returnedOf ++ (h.granting m ++ h.outward.2.2)) := by
  have popped : ∀ {f : Frame} {rest : List Frame}, h.stack = f :: rest → f.lease? = none →
      h.pop.outward = h.outward := fun hst hf => outward_pop h hst hf
  cases hm with
  | settleEvent hst =>
    exact outward_of_eq (by rw [outward_settleEvent, popped hst rfl]) (flagging_step hst (by simp)) rfl rfl
  | settleTimeout hst =>
    exact outward_of_eq (by rw [outward_settleTimeout, popped hst rfl]) (flagging_step hst (by simp))
      rfl rfl
  | reportCancel hst =>
    exact outward_of_eq (by rw [outward_reportCancel, popped hst rfl]) (flagging_step hst (by simp)) rfl rfl
  | releaseStep hst =>
    exact outward_of_givesBack ((givesBack_releaseStep _ _).of_outward (popped hst rfl))
      (flagging_step hst (by simp)) rfl rfl
  | enter hst => exact outward_of_eq (outward_enter hst) (flagging_step hst (by simp)) rfl rfl
  | drive hst => exact ⟨[], outward_drive hst⟩
  | pass | newToken | openSession | handleWith | addHook | defaultTimeout =>
    exact outward_of_eq rfl rfl rfl rfl
  | newModal => exact ⟨[], by simp [outward, flags, flagging, granting, enRoute]⟩
  | configure => exact outward_of_eq (outward_prepare _ _) rfl rfl rfl
  | run => exact outward_of_eq (outward_push _ _) rfl rfl rfl
  | drop => exact outward_of_eq (outward_drop _ _) rfl rfl rfl
  | deliver => exact outward_of_givesBack (givesBack_deliver _) rfl rfl rfl
  | fail => exact outward_of_eq (outward_fail _ _ _) rfl rfl rfl
  | cancel => exact outward_of_givesBack givesBack_cancel rfl rfl rfl
  | ring => exact outward_of_givesBack (givesBack_ring _) rfl rfl rfl
  | cancelAll => exact outward_of_eq (outward_cancelAll _ _) rfl rfl rfl
  | cancelToken => exact outward_of_eq (outward_cancelToken _ _) rfl rfl rfl
  | register => exact outward_of_givesBack givesBack_register rfl rfl rfl
  | timeoutAfter | timeoutWith => exact outward_of_eq (outward_setTimeout _ _ _) rfl rfl rfl
  | subscribe => exact outward_of_givesBack (givesBack_subscribe _ _) rfl rfl rfl
  | configured hst => exact outward_of_eq (by rw [outward_configured, popped hst rfl]) rfl rfl rfl
  | @granted s rest l hst =>
    obtain ⟨u, hu⟩ := givesBack_grant (h := h.pop) (s := s) l
    refine ⟨u, ?_⟩
    rw [hu, outward_note, popped hst rfl, granting, hst]
    rfl
  | declined hst => exact outward_of_eq (by rw [outward_decline, popped hst rfl]) rfl rfl rfl
  | unsubscribed hst => exact ⟨[], by simp [outward, flags, flagging, granting, enRoute, pop, hst]⟩
  | hookReplied hst =>
    obtain ⟨l, hl⟩ := ha.driving_below hst (.inr ⟨_, _, rfl⟩)
    exact outward_of_eq (by rw [outward_hookReplied hl, popped hst rfl]) rfl rfl rfl
  | postReplied hst =>
    obtain ⟨l, hl⟩ := ha.driving_below hst (.inl rfl)
    exact outward_of_eq (by rw [outward_postReplied hl, popped hst rfl]) rfl rfl rfl

theorem flags_move (ha : Reachable h) (hm : Moved h m h') : h'.flags = h.flagging m := by
  obtain ⟨l, he⟩ := outward_move ha hm
  exact congrArg Prod.fst he

/-! ### Leases -/

theorem mem_outward : l ∈ h.outward.2.1 ↔ .unsubscribing l ∈ h.stack := by
  rw [outward, List.mem_filterMap]
  constructor
  · rintro ⟨f, hf, hl⟩
    cases f <;> cases hl
    exact hf
  · exact fun hl => ⟨_, hl, rfl⟩

theorem enRoute_subset (h : Hub) (m : Move) : h.enRoute m ⊆ h.outward.2.1 := by
  unfold enRoute
  split
  · exact (List.tail_sublist _).subset
  · exact List.Subset.refl _

theorem enRoute_eq (hn : m ≠ .unsubscribed) : h.enRoute m = h.outward.2.1 := by
  unfold enRoute
  split
  · exact absurd rfl hn
  · rfl

theorem granted_eq (h : Hub) (s : SubId) :
    h.granted s = h.outward.2.2.filterMap (·.granted? s) := by
  rw [outward, List.filterMap_filter]
  refine congrArg (List.filterMap · h.journal) (funext fun x => ?_)
  cases x <;> rfl

theorem mem_returned {s : SubId} : l ∈ h.returned s ↔ .returned s l ∈ h.outward.2.2 := by
  rw [returned, outward, List.mem_filterMap, List.mem_filter]
  constructor
  · rintro ⟨x, hx, hl⟩
    cases x with
    | returned t k =>
      obtain ⟨rfl, hk⟩ := Option.ite_none_right_eq_some.1 hl
      cases hk
      exact ⟨hx, rfl⟩
    | _ => cases hl
  · exact fun hx => ⟨_, hx.1, if_pos rfl⟩

/-- Leases are granted by the transport and by nobody else. -/
theorem granted_move (ha : Reachable h) (hm : Moved h m h') (s : SubId) :
    h'.granted s = (h.granting m).filterMap (·.granted? s) ++ h.granted s := by
  obtain ⟨l, he⟩ := outward_move ha hm
  have hl : (l.map returnedOf).filterMap (·.granted? s) = [] := by
    rw [List.filterMap_eq_nil_iff]
    intro x hx
    obtain ⟨p, -, rfl⟩ := List.mem_map.1 hx
    rfl
  rw [granted_eq h', he, List.filterMap_append, hl, List.filterMap_append, ← granted_eq]
  rfl

/-- A lease on its way back stays there until it arrives. -/
theorem unsubscribing_move (ha : Reachable h) (hm : Moved h m h') (hn : m ≠ .unsubscribed)
    (hl : .unsubscribing l ∈ h.stack) : .unsubscribing l ∈ h'.stack := by
  obtain ⟨ls, he⟩ := outward_move ha hm
  rw [← mem_outward, he, enRoute_eq hn]
  exact List.mem_append_right _ (mem_outward.2 hl)

/-- A lease that is given back is on its way from then on. -/
theorem returned_move (ha : Reachable h) (hm : Moved h m h') {s : SubId} (hl : l ∈ h'.returned s) :
    l ∈ h.returned s ∨ .unsubscribing l ∈ h'.stack := by
  obtain ⟨ls, he⟩ := outward_move ha hm
  rw [← mem_outward]
  rw [mem_returned] at hl ⊢
  rw [he] at hl ⊢
  rcases List.mem_append.1 hl with hl | hl
  · obtain ⟨p, hp, hpl⟩ := List.mem_map.1 hl
    cases hpl
    exact .inr (List.mem_append_left _ (List.mem_map.2 ⟨p, hp, rfl⟩))
  · refine .inl ((List.mem_append.1 hl).resolve_left fun hg => ?_)
    unfold granting at hg
    split at hg
    · split at hg
      · cases List.mem_singleton.1 hg
      · cases hg
    · cases hg

/-- A lease that is on its way back has been given back. -/
theorem Reachable.returned_of_unsubscribing (hr : Reachable h) (hl : .unsubscribing l ∈ h.stack) :
    ∃ s, l ∈ h.returned s := by
  induction hr using Reachable.induct with
  | init settings => cases hl
  | move a b m ha hm ih =>
    obtain ⟨ls, he⟩ := outward_move ha (moved_of_move? hm)
    rw [← mem_outward, he] at hl
    simp only [mem_returned, he]
    rcases List.mem_append.1 hl with hl | hl
    · obtain ⟨p, hp, rfl⟩ := List.mem_map.1 hl
      exact ⟨p.1, List.mem_append_left _ (List.mem_map.2 ⟨p, hp, rfl⟩)⟩
    · obtain ⟨s, hs⟩ := ih (mem_outward.1 (enRoute_subset a m hl))
      exact ⟨s, List.mem_append_right _ (List.mem_append_right _ (mem_returned.1 hs))⟩

end
end Hub
end Aftermath
